import QuartzFire.Firewall.Schema

/-!
# Renumbering rules to a display order

The i-th rule of the order moves to number `10·(i+1)` in every scope it has.
Moved rules are deleted first and rebuilt from their raw subtrees after, so
that numbers may be swapped.
-/

namespace QuartzFire.Firewall

open ConfigTree

mutual

/-- Serialize a raw config subtree back into `set` commands. -/
def cfgToCommands (base : Path) : Cfg → List VyosCommand
  | .node (entry :: entries) => entriesToCommands base (entry :: entries)
  | _ => [.set base]

def entriesToCommands (base : Path) :
    List (String × Cfg) → List VyosCommand
  | [] => []
  | (key, .value text) :: rest =>
      (if text = "" then .set (base ++ [key])
        else .set (base ++ [key, text])) :: entriesToCommands base rest
  | (key, .scalar text) :: rest =>
      .set (base ++ [key, text]) :: entriesToCommands base rest
  | (key, .values texts) :: rest =>
      texts.map (fun text => .set (base ++ [key, text])) ++
        entriesToCommands base rest
  | (key, .node entries) :: rest =>
      cfgToCommands (base ++ [key]) (.node entries) ++
        entriesToCommands base rest
  | (key, .null) :: rest =>
      .set (base ++ [key]) :: entriesToCommands base rest

end

/-- The number the i-th rule of an order moves to. -/
def orderNumber (index : Nat) : Nat := (index + 1) * 10

/-- The rules whose number changes, and the number each moves to. -/
def renumberTargets (orderedRules : List FirewallRule) :
    List (FirewallRule × Nat) :=
  (orderedRules.zipIdx.map fun (rule, index) =>
    (rule, orderNumber index)).filter fun (rule, target) => rule.rule ≠ target

/-- `new Map(entries)`: the last entry of a key stands. -/
def mapOf {Key Value : Type} [DecidableEq Key]
    (entries : List (Key × Value)) (key : Key) : Option Value :=
  (entries.reverse.find? fun entry => entry.1 = key).map Prod.snd

theorem mapOf_mem {Key Value : Type} [DecidableEq Key]
    {entries : List (Key × Value)} {key : Key} {value : Value}
    (found : mapOf entries key = some value) : (key, value) ∈ entries := by
  rw [mapOf, Option.map_eq_some_iff] at found
  obtain ⟨entry, found, rfl⟩ := found
  have member := List.mem_reverse.mp (List.mem_of_find?_eq_some found)
  have same : entry.1 = key := by simpa using List.find?_some found
  exact same ▸ member

theorem mapOf_isSome {Key Value : Type} [DecidableEq Key]
    {entries : List (Key × Value)} {key : Key} {value : Value}
    (member : (key, value) ∈ entries) : ∃ last, mapOf entries key = some last := by
  cases found : mapOf entries key with
  | some last => exact ⟨last, rfl⟩
  | none =>
      rw [mapOf, Option.map_eq_none_iff, List.find?_eq_none] at found
      simpa using found (key, value) (List.mem_reverse.mpr member)

/-- Old rule number to new number. -/
def renumberByRule (orderedRules : List FirewallRule) : Nat → Option Nat :=
  mapOf ((renumberTargets orderedRules).map fun (rule, target) =>
    (rule.rule, target))

theorem renumberByRule_eq (orderedRules : List FirewallRule) :
    renumberByRule orderedRules = mapOf ((renumberTargets orderedRules).map
      fun entry => (entry.1.rule, entry.2)) := rfl

/-- Where the config rules of each moved rule end up, by scope and number. -/
def renumberMap (orderedRules : List FirewallRule) :
    List ((RuleChain × Nat) × Nat) :=
  (renumberTargets orderedRules).flatMap fun (rule, target) =>
    rule.scopes.map fun scope => ((scope.chain, rule.rule), target)

def reorderCommands (orderedRules : List FirewallRule) : List VyosCommand :=
  let targets := renumberTargets orderedRules
  let deletes := targets.flatMap fun (rule, _) =>
    rule.scopes.map fun scope => .delete (ruleBase scope.chain rule.rule)
  let sets := targets.flatMap fun (rule, target) =>
    rule.scopes.flatMap fun scope =>
      cfgToCommands (ruleBase scope.chain target) scope.raw
  deletes ++ sets

/-! ## Serializing -/

theorem entriesToCommands_eq (entries : List (String × Cfg))
    (texts : ∀ key text, (key, .value text) ∈ entries → text ≠ "")
    (nodes : ∀ key below, (key, .node below) ∈ entries → ∀ base,
      cfgToCommands base (.node below) = buildAt base (.node below))
    (base : Path) :
    entriesToCommands base entries =
      (entryPaths entries).map fun path => .set (base ++ path) := by
  induction entries with
  | nil => rfl
  | cons entry entries ih =>
      obtain ⟨key, tree⟩ := entry
      have rest := ih
        (fun key text member => texts key text (List.mem_cons_of_mem _ member))
        (fun key below member => nodes key below
          (List.mem_cons_of_mem _ member))
      cases tree with
      | value text =>
          have filled := texts key text (by simp)
          simp [entriesToCommands, entryPaths, leafPaths, filled, rest]
      | values texts =>
          simp [entriesToCommands, entryPaths, leafPaths, rest]
      | scalar text | null =>
          simp [entriesToCommands, entryPaths, leafPaths, rest]
      | node below =>
          rw [entriesToCommands, entryPaths, List.map_append, rest,
            nodes key below (by simp), buildAt, List.map_map]
          simp

/-- What fits the schema and has no empty leaf is serialized leaf by leaf. -/
theorem cfgToCommands_eq_buildAt {kinds : Kinds String} {key : String}
    {entries : List (String × Cfg)} (fits : Fits kinds key (.node entries))
    (filled : Filled (.node entries)) (base : Path) :
    cfgToCommands base (.node entries) = buildAt base (.node entries) := by
  generalize same : ConfigTree.node entries = cfg at fits
  induction fits generalizing entries base with
  | valueless _ =>
      cases same
      simp [cfgToCommands, buildAt, leafPaths]
  | node _ distinct _ ih =>
      rename_i below _ _
      cases same
      cases below with
      | nil => simp [cfgToCommands, buildAt, leafPaths]
      | cons entry rest =>
          have reach : ∀ (key : String) (tree : Cfg),
              (key, tree) ∈ entry :: rest → ∀ path : Path,
              subtree (key :: path) (.node (entry :: rest)) =
                subtree path tree := by
            intro key tree member path
            rw [subtree, child, entries_node,
              (findEntry_eq_some_iff distinct).mpr member, Option.bind_some]
          rw [cfgToCommands, buildAt, leafPaths]
          refine entriesToCommands_eq _ ?_ ?_ base
          · rintro key text member rfl
            exact filled [key] (reach key _ member [])
          · intro key below member base
            refine ih _ member (fun path found => ?_) base rfl
            exact filled (key :: path) ((reach key _ member path).trans found)
  | _ => cases same

/-! ## Orders -/

theorem mem_renumberTargets {orderedRules : List FirewallRule}
    {rule : FirewallRule} {target : Nat} :
    (rule, target) ∈ renumberTargets orderedRules ↔
      ∃ index, orderedRules[index]? = some rule ∧
        target = orderNumber index ∧ rule.rule ≠ target := by
  simp only [renumberTargets, List.mem_filter, List.mem_map, Prod.exists,
    List.mem_zipIdx_iff_getElem?, Prod.mk.injEq, decide_eq_true_eq]
  constructor
  · rintro ⟨⟨found, index, present, rfl, rfl⟩, moved⟩
    exact ⟨index, present, rfl, moved⟩
  · rintro ⟨index, present, rfl, moved⟩
    exact ⟨⟨rule, index, present, rfl, rfl⟩, moved⟩

theorem orderNumber_injective {left right : Nat}
    (same : orderNumber left = orderNumber right) : left = right := by
  simp only [orderNumber] at same
  omega

/-- No rule moves to the numbers of the baseline. -/
theorem not_top (index : Nat) :
    ¬ (toString (orderNumber index) = "1" ∨
      toString (orderNumber index) = "2") := by
  intro top
  have number : orderNumber index = 1 ∨ orderNumber index = 2 :=
    top.imp toString_injective toString_injective
  simp only [orderNumber] at number
  omega

/-- Moved rules move to distinct numbers. -/
theorem pairwise_renumberTargets (orderedRules : List FirewallRule) :
    (renumberTargets orderedRules).Pairwise fun left right =>
      left.2 ≠ right.2 := by
  refine List.Pairwise.filter _ (List.pairwise_map.mpr ?_)
  have indices : (orderedRules.zipIdx.map Prod.snd).Nodup := by
    rw [List.zipIdx_map_snd]
    exact List.nodup_range'
  refine (List.pairwise_map.mp indices).imp fun different same => ?_
  exact different (orderNumber_injective same)

/-- The bodies a reorder rebuilds, and where. -/
def rebuilds (orderedRules : List FirewallRule) : List (Path × Cfg) :=
  (renumberTargets orderedRules).flatMap fun (rule, target) =>
    rule.scopes.map fun scope => (ruleBase scope.chain target, scope.raw)

/-- The places a reorder vacates. -/
def vacated (orderedRules : List FirewallRule) : List Path :=
  (renumberTargets orderedRules).flatMap fun (rule, _) =>
    rule.scopes.map fun scope => ruleBase scope.chain rule.rule

theorem reorderCommands_eq {orderedRules : List FirewallRule}
    (serialized : ∀ rule ∈ orderedRules, ∀ scope ∈ rule.scopes, ∀ base,
      cfgToCommands base scope.raw = buildAt base scope.raw) :
    reorderCommands orderedRules =
      (vacated orderedRules).map .delete ++
        (rebuilds orderedRules).flatMap fun block =>
          buildAt block.1 block.2 := by
  rw [reorderCommands, vacated, rebuilds, List.map_flatMap,
    List.flatMap_assoc]
  congr 1
  · apply List.flatMap_congr
    rintro ⟨rule, target⟩ _
    rw [List.map_map]
    rfl
  · apply List.flatMap_congr
    rintro ⟨rule, target⟩ member
    obtain ⟨index, present, _⟩ := mem_renumberTargets.mp member
    rw [List.flatMap_map]
    apply List.flatMap_congr
    intro scope inScopes
    exact serialized rule (List.mem_of_getElem? present) scope inScopes _

theorem mem_vacated {orderedRules : List FirewallRule}
    {path : Path} :
    path ∈ vacated orderedRules ↔
      ∃ (index : Nat) (rule : FirewallRule) (scope : RuleScope),
        orderedRules[index]? = some rule ∧ rule.rule ≠ orderNumber index ∧
          scope ∈ rule.scopes ∧ path = ruleBase scope.chain rule.rule := by
  simp only [vacated, List.mem_flatMap, Prod.exists, mem_renumberTargets,
    List.mem_map]
  constructor
  · rintro ⟨rule, _, ⟨index, present, rfl, moved⟩, scope, inScopes, rfl⟩
    exact ⟨index, rule, scope, present, moved, inScopes, rfl⟩
  · rintro ⟨index, rule, scope, present, moved, inScopes, rfl⟩
    exact ⟨rule, _, ⟨index, present, rfl, moved⟩, scope, inScopes, rfl⟩

theorem mem_rebuilds {orderedRules : List FirewallRule}
    {block : Path × Cfg} :
    block ∈ rebuilds orderedRules ↔
      ∃ (index : Nat) (rule : FirewallRule) (scope : RuleScope),
        orderedRules[index]? = some rule ∧ rule.rule ≠ orderNumber index ∧
          scope ∈ rule.scopes ∧
          block = (ruleBase scope.chain (orderNumber index), scope.raw) := by
  simp only [rebuilds, List.mem_flatMap, Prod.exists, mem_renumberTargets,
    List.mem_map]
  constructor
  · rintro ⟨rule, _, ⟨index, present, rfl, moved⟩, scope, inScopes, rfl⟩
    exact ⟨index, rule, scope, present, moved, inScopes, rfl⟩
  · rintro ⟨index, rule, scope, present, moved, inScopes, rfl⟩
    exact ⟨rule, _, ⟨index, present, rfl, moved⟩, scope, inScopes, rfl⟩

/-- After the deletes a place is empty if it was vacated, and as it was if
not. -/
theorem subtree_vacated (orderedRules : List FirewallRule)
    (kinds : Kinds String) (chain : RuleChain) (key : String) (root : Cfg) :
    subtree (filterBase chain ++ ["rule", key])
      (executeAll kinds ((vacated orderedRules).map .delete) root) =
      if filterBase chain ++ ["rule", key] ∈ vacated orderedRules then none
      else subtree (filterBase chain ++ ["rule", key]) root := by
  have compare : ∀ path ∈ vacated orderedRules,
      path = filterBase chain ++ ["rule", key] ∨
        Diverges path (filterBase chain ++ ["rule", key]) := by
    intro path member
    obtain ⟨_, rule, scope, _, _, _, rfl⟩ := mem_vacated.mp member
    by_cases same : (scope.chain, toString rule.rule) = (chain, key)
    · cases same
      exact .inl rfl
    · exact .inr (diverges_rulePath same)
  have proper : ∀ path ∈ vacated orderedRules, path ≠ [] := by
    intro path member
    obtain ⟨_, rule, scope, _, _, _, rfl⟩ := mem_vacated.mp member
    simp [ruleBase]
  rw [subtree_deletes proper (fun path member => (compare path member).imp
    (fun same => same ▸ List.prefix_refl path) id)]
  congr 1
  apply propext
  constructor
  · rintro ⟨path, member, leads⟩
    rcases compare path member with same | diverges
    · exact same ▸ member
    · exact absurd leads diverges.1
  · intro member
    exact ⟨_, member, List.prefix_refl _⟩

/-! ## What a reorder does -/

/-- The rules of the order, numbered by position, are exactly the visible rules
of the new configuration; hidden rules and everything else stay. -/
structure Reordered (before after : Cfg) (orderedRules : List FirewallRule) :
    Prop where
  numbered : ∀ (index : Nat) (rule : FirewallRule),
    orderedRules[index]? = some rule → ∀ scope ∈ rule.scopes,
      subtree (ruleBase scope.chain (orderNumber index)) after =
        some scope.raw
  only : ∀ chain ∈ readChains before, ∀ key body,
    subtree (filterBase chain ++ ["rule", key]) after = some body →
    isSystem body = false →
    ∃ (index : Nat) (rule : FirewallRule) (scope : RuleScope),
      orderedRules[index]? = some rule ∧ scope ∈ rule.scopes ∧
        scope.chain = chain ∧ key = toString (orderNumber index) ∧
        body = scope.raw
  system : ∀ chain ∈ readChains before, ∀ key body, isSystem body = true →
    (subtree (filterBase chain ++ ["rule", key]) after = some body ↔
      subtree (filterBase chain ++ ["rule", key]) before = some body)
  others : ∀ path,
    (∀ chain ∈ readChains before, ∀ key,
      Diverges (filterBase chain ++ ["rule", key]) path) →
    subtree path after = subtree path before

/-- The hidden rules are where the baseline puts them. -/
def SystemAtTop (root : Cfg) : Prop :=
  ∀ chain ∈ readChains root, ∀ key body,
    subtree (filterBase chain ++ ["rule", key]) root = some body →
    isSystem body = true → key = "1" ∨ key = "2"

section Reordering

variable {schema : Schema} {locale : Locale} {root : Cfg}
  {orderedRules : List FirewallRule}

/-- A permutation of the rules of a rendered configuration. -/
structure Ordering (schema : Schema) (locale : Locale) (root : Cfg)
    (orderedRules : List FirewallRule) : Prop where
  rendered : Rendered schema root
  permutation : orderedRules.Perm (fetchFirewall locale root).rules

namespace Ordering

variable (ordering : Ordering schema locale root orderedRules)
include ordering

theorem visible {rule : FirewallRule} {scope : RuleScope}
    (member : rule ∈ orderedRules) (inScopes : scope ∈ rule.scopes) :
    Visible root ⟨scope.chain, rule.rule, scope.raw⟩ := by
  refine (mem_placements ordering.rendered locale).mp
    ((placements_perm ordering.permutation).mem_iff.mp ?_)
  exact List.mem_flatMap.mpr ⟨rule, member,
    List.mem_map.mpr ⟨scope, inScopes, rfl⟩⟩

theorem exists_rule (placement : Placement) (shown : Visible root placement) :
    ∃ (index : Nat) (rule : FirewallRule) (scope : RuleScope),
      orderedRules[index]? = some rule ∧ scope ∈ rule.scopes ∧
        scope.chain = placement.chain ∧ rule.rule = placement.number ∧
        scope.raw = placement.raw := by
  have member := (placements_perm ordering.permutation).mem_iff.mpr
    ((mem_placements ordering.rendered locale).mpr shown)
  obtain ⟨rule, inOrder, backs⟩ := List.mem_flatMap.mp member
  obtain ⟨scope, inScopes, rfl⟩ := List.mem_map.mp backs
  obtain ⟨index, present⟩ := List.mem_iff_getElem?.mp inOrder
  exact ⟨index, rule, scope, present, inScopes, rfl, rfl, rfl⟩

theorem nodup_places : ((placements orderedRules).map Placement.place).Nodup :=
  ((placements_perm ordering.permutation).map _).nodup_iff.mpr
    (Firewall.nodup_places ordering.rendered locale)

/-- One scope and number belong to one position of the order. -/
theorem index_unique {left right : Nat} {rule other : FirewallRule}
    {scope probe : RuleScope}
    (present : orderedRules[left]? = some rule)
    (found : orderedRules[right]? = some other)
    (inRule : scope ∈ rule.scopes) (inOther : probe ∈ other.scopes)
    (chains : scope.chain = probe.chain) (numbers : rule.rule = other.rule) :
    left = right := by
  have unique := ordering.nodup_places
  rw [placements, List.map_flatMap, List.nodup_flatMap] at unique
  have disjoint : ∀ (first second : Nat) (rule other : FirewallRule),
      orderedRules[first]? = some rule → orderedRules[second]? = some other →
      (∃ scope ∈ rule.scopes, ∃ probe ∈ other.scopes,
        scope.chain = probe.chain) → rule.rule = other.rule →
      ¬ first < second := by
    rintro first second rule other present found
      ⟨scope, inRule, probe, inOther, chains⟩ numbers before
    obtain ⟨bound, rfl⟩ := List.getElem?_eq_some_iff.mp present
    obtain ⟨bound', rfl⟩ := List.getElem?_eq_some_iff.mp found
    have apart := List.pairwise_iff_getElem.mp unique.2 first second bound
      bound' before
    refine apart (a := (scope.chain, orderedRules[first].rule)) ?_ ?_
    · exact List.mem_map.mpr ⟨_, List.mem_map.mpr ⟨scope, inRule, rfl⟩, rfl⟩
    · rw [chains, numbers]
      exact List.mem_map.mpr ⟨_, List.mem_map.mpr ⟨probe, inOther, rfl⟩, rfl⟩
  have forth := disjoint left right rule other present found
    ⟨scope, inRule, probe, inOther, chains⟩ numbers
  have back := disjoint right left other rule found present
    ⟨probe, inOther, scope, inRule, chains.symm⟩ numbers.symm
  omega

theorem nodup_chains {rule : FirewallRule} (member : rule ∈ orderedRules) :
    (rule.scopes.map RuleScope.chain).Nodup := by
  have unique := ordering.nodup_places
  rw [placements, List.map_flatMap, List.nodup_flatMap] at unique
  have inRule := unique.1 rule member
  rw [FirewallRule.placements, List.map_map] at inRule
  refine List.Nodup.of_map (fun chain => (chain, rule.rule)) ?_
  rw [List.map_map]
  exact inRule

theorem serialized {rule : FirewallRule} {scope : RuleScope}
    (member : rule ∈ orderedRules) (inScopes : scope ∈ rule.scopes)
    (base : Path) :
    cfgToCommands base scope.raw = buildAt base scope.raw := by
  obtain ⟨_, found, _⟩ := ordering.visible member inScopes
  obtain ⟨entries, body, fits, _, filled⟩ :=
    body_fits ordering.rendered found
  dsimp only at body fits filled
  rw [body] at fits filled ⊢
  exact cfgToCommands_eq_buildAt fits filled base

/-- A body rebuilt under another number is the same body. -/
theorem rebuilt {rule : FirewallRule} {scope : RuleScope}
    (member : rule ∈ orderedRules) (inScopes : scope ∈ rule.scopes)
    (number : Nat) :
    leafPaths scope.raw ≠ [] ∧
      executeAll (schema.kinds.below (ruleBase scope.chain number))
        ((leafPaths scope.raw).map .set) (.node []) = scope.raw := by
  obtain ⟨_, found, _⟩ := ordering.visible member inScopes
  obtain ⟨_, _, fits, isNode, _⟩ := body_fits ordering.rendered found
  refine ⟨leafPaths_ne_nil fits, ?_⟩
  rw [ruleBase, ruleKinds schema scope.chain (toString rule.rule)]
  exact fits.rebuild_body isNode

/-- No moved rule is rebuilt on top of a body that stays. -/
theorem rebuilds_absent {index : Nat} {rule : FirewallRule} {scope : RuleScope}
    (atTop : ∀ key body,
      subtree (filterBase scope.chain ++ ["rule", key]) root = some body →
      isSystem body = true → key = "1" ∨ key = "2")
    (present : orderedRules[index]? = some rule)
    (moved : rule.rule ≠ orderNumber index) (inScopes : scope ∈ rule.scopes)
    (kinds : Kinds String) :
    subtree (ruleBase scope.chain (orderNumber index))
      (executeAll kinds ((vacated orderedRules).map .delete) root) = none := by
  rw [ruleBase, subtree_vacated]
  split
  · rfl
  rename_i kept
  cases found : subtree (filterBase scope.chain ++
      ["rule", toString (orderNumber index)]) root with
  | none => rfl
  | some body =>
      exfalso
      have read := (ordering.visible (List.mem_of_getElem? present)
        inScopes).1
      cases hidden : isSystem body with
      | true => exact not_top index (atTop _ body found hidden)
      | false =>
          obtain ⟨other, holder, copy, found', inHolder, chains, numbers, _⟩ :=
            ordering.exists_rule ⟨scope.chain, orderNumber index, body⟩
              ⟨read, found, hidden⟩
          dsimp only at chains numbers
          by_cases stays : holder.rule = orderNumber other
          · have same : other = index :=
              orderNumber_injective (stays.symm.trans numbers)
            rw [same, present] at found'
            cases found'
            exact moved numbers
          · refine kept (mem_vacated.mpr ⟨other, holder, copy, found', stays,
              inHolder, ?_⟩)
            rw [ruleBase, chains, numbers]

theorem pairwise_rebuilds : (rebuilds orderedRules).Pairwise
    fun left right => Diverges left.1 right.1 := by
  rw [rebuilds, List.pairwise_flatMap]
  constructor
  · rintro ⟨rule, target⟩ member
    obtain ⟨index, present, _⟩ := mem_renumberTargets.mp member
    rw [List.pairwise_map]
    have chains := ordering.nodup_chains (List.mem_of_getElem? present)
    refine (List.pairwise_map.mp chains).imp fun different => ?_
    exact diverges_ruleBase fun same => different (congrArg Prod.fst same)
  · refine (pairwise_renumberTargets orderedRules).imp ?_
    rintro left right different block inLeft other inRight
    obtain ⟨scope, _, rfl⟩ := List.mem_map.mp inLeft
    obtain ⟨probe, _, rfl⟩ := List.mem_map.mp inRight
    exact diverges_ruleBase fun same => different (Prod.mk.inj same).2

/-- A moved rule has its body under its new number. -/
theorem subtree_rebuilt {index : Nat} {rule : FirewallRule} {scope : RuleScope}
    (atTop : ∀ key body,
      subtree (filterBase scope.chain ++ ["rule", key]) root = some body →
      isSystem body = true → key = "1" ∨ key = "2")
    (present : orderedRules[index]? = some rule)
    (moved : rule.rule ≠ orderNumber index) (inScopes : scope ∈ rule.scopes) :
    subtree (ruleBase scope.chain (orderNumber index))
      (executeAll schema.kinds (reorderCommands orderedRules) root) =
        some scope.raw := by
  rw [reorderCommands_eq fun rule member scope inScopes base =>
    ordering.serialized member inScopes base, executeAll_append]
  refine @subtree_buildAll _ _ _ _ ordering.pairwise_rebuilds ?_ ?_ _
    (ruleBase scope.chain (orderNumber index), scope.raw)
    (mem_rebuilds.mpr ⟨index, rule, scope, present, moved, inScopes, rfl⟩)
    (ordering.rebuilds_absent atTop present moved inScopes schema.kinds)
  · intro block member
    obtain ⟨_, _, probe, _, _, _, rfl⟩ := mem_rebuilds.mp member
    exact schema.ruleNode probe.chain _
  · intro block member
    obtain ⟨_, _, probe, found, _, inOther, rfl⟩ := mem_rebuilds.mp member
    exact ordering.rebuilt (List.mem_of_getElem? found) inOther _

/-- A path that leads to no rebuilt place is as the deletes left it. -/
theorem subtree_elsewhere {path : Path}
    (apart : ∀ block ∈ rebuilds orderedRules, Diverges block.1 path) :
    subtree path
      (executeAll schema.kinds (reorderCommands orderedRules) root) =
      subtree path (executeAll schema.kinds
        ((vacated orderedRules).map .delete) root) := by
  rw [reorderCommands_eq fun rule member scope inScopes base =>
    ordering.serialized member inScopes base, executeAll_append]
  refine subtree_executeAll_of_diverges ?_ _
  intro command written
  obtain ⟨block, member, below⟩ := List.mem_flatMap.mp written
  obtain ⟨leaf, _, rfl⟩ := List.mem_map.mp below
  simpa [Command.path] using (apart block member).append leaf []

/-- A path away from all rules is left alone. -/
theorem subtree_apart {path : Path}
    (apart : ∀ chain ∈ readChains root, ∀ key,
      Diverges (filterBase chain ++ ["rule", key]) path) :
    subtree path
      (executeAll schema.kinds (reorderCommands orderedRules) root) =
      subtree path root := by
  have places : ∀ (index : Nat) (rule : FirewallRule) (scope : RuleScope),
      orderedRules[index]? = some rule → scope ∈ rule.scopes → ∀ number,
        Diverges (ruleBase scope.chain number) path := by
    intro index rule scope present inScopes number
    exact apart scope.chain
      (ordering.visible (List.mem_of_getElem? present) inScopes).1 _
  rw [ordering.subtree_elsewhere]
  · refine subtree_executeAll_of_diverges ?_ root
    intro command written
    obtain ⟨place, member, rfl⟩ := List.mem_map.mp written
    obtain ⟨index, rule, scope, present, _, inScopes, rfl⟩ :=
      mem_vacated.mp member
    exact places index rule scope present inScopes _
  · intro block member
    obtain ⟨index, rule, scope, present, _, inScopes, rfl⟩ :=
      mem_rebuilds.mp member
    exact places index rule scope present inScopes _

/-- A place no moved rule goes to keeps its body unless vacated. -/
theorem subtree_kept {chain : RuleChain} {key : String}
    (free : ∀ (index : Nat) (rule : FirewallRule) (scope : RuleScope),
      orderedRules[index]? = some rule → rule.rule ≠ orderNumber index →
      scope ∈ rule.scopes → scope.chain = chain →
      key ≠ toString (orderNumber index)) :
    subtree (filterBase chain ++ ["rule", key])
      (executeAll schema.kinds (reorderCommands orderedRules) root) =
      if filterBase chain ++ ["rule", key] ∈ vacated orderedRules then none
      else subtree (filterBase chain ++ ["rule", key]) root := by
  rw [ordering.subtree_elsewhere, subtree_vacated]
  intro block member
  obtain ⟨index, rule, scope, present, moved, inScopes, rfl⟩ :=
    mem_rebuilds.mp member
  refine diverges_rulePath fun same => ?_
  obtain ⟨chains, keys⟩ := Prod.mk.inj same
  exact free index rule scope present moved inScopes chains keys.symm

/-- A place that was not vacated holds a rule that stays, or a hidden one. -/
theorem vacated_or_stays (placement : Placement)
    (shown : Visible root placement) :
    ruleBase placement.chain placement.number ∈ vacated orderedRules ∨
      ∃ (index : Nat) (rule : FirewallRule) (scope : RuleScope),
        orderedRules[index]? = some rule ∧ scope ∈ rule.scopes ∧
          scope.chain = placement.chain ∧
          placement.number = orderNumber index ∧
          placement.raw = scope.raw := by
  obtain ⟨index, rule, scope, present, inScopes, chains, numbers, bodies⟩ :=
    ordering.exists_rule placement shown
  by_cases stays : rule.rule = orderNumber index
  · exact .inr ⟨index, rule, scope, present, inScopes, chains,
      numbers.symm.trans stays, bodies.symm⟩
  · exact .inl (mem_vacated.mpr ⟨index, rule, scope, present, stays, inScopes,
      by rw [chains, numbers]⟩)

end Ordering

end Reordering

theorem systemAtTop_of_check {root : Cfg}
    (passes : ((readChains root).all fun chain =>
      (ruleEntries root chain).all fun entry =>
        !isSystem entry.2 || entry.1 = "1" || entry.1 = "2") = true) :
    SystemAtTop root := by
  intro chain read key body found hidden
  simp only [List.all_eq_true] at passes
  simpa [hidden] using passes chain read (key, body) (mem_ruleEntries found)

/-- A hidden baseline rule, two forward rules, and a rule of two zone pairs. -/
def zonedConfig : Cfg :=
  let binding := fun ruleset => .node [("firewall", .node
    [("name", .value ruleset)])]
  let copy := .node [("action", .value "drop"), ("state", .values
    ["new", "invalid"])]
  .node [("firewall", .node
    [("ipv4", .node
      [("forward", .node [("filter", .node [("rule", .node
        [("1", .node [("action", .value "accept"),
          ("description", .value "[qz-sys] replies")]),
          ("20", .node [("action", .value "accept"), ("log", .node [])]),
          ("10", .node [("action", .value "drop"),
            ("source", .node [("address", .value "10.0.0.1")])])])])]),
        ("name", .node
          [("QZ-Z-DMZ-TO-WAN", .node [("rule", .node [("30", copy)])]),
            ("QZ-Z-LAN-TO-WAN", .node [("rule", .node [("30", copy)])])])]),
      ("zone", .node [("WAN", .node [("from", .node
        [("LAN", binding "QZ-Z-LAN-TO-WAN"),
          ("DMZ", binding "QZ-Z-DMZ-TO-WAN")])])])])]

end QuartzFire.Firewall
