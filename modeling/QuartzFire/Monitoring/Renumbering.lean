import Mathlib.Data.List.Flatten
import QuartzFire.Firewall.Reorder
import QuartzFire.Monitoring.Attribution

/-!
# Attributions follow a reorder

A cached entry names a rule by its chain and its number, and a reorder hands
the numbers out anew.  The moves it posts to the cache are all made at once.
-/

namespace QuartzFire.Monitoring

open Firewall (FirewallRule RuleChain RuleScope Schema Cfg
  renumberTargets mem_renumberTargets orderNumber)

/-- What a move applies to. -/
def RenumberMove.place (move : RenumberMove) : List Char × Nat :=
  (move.chain, move.source)

/-- The moves of a reorder, one for each scope of a moved rule. -/
def attributionMoves (orderedRules : List FirewallRule) : List RenumberMove :=
  (renumberTargets orderedRules).flatMap fun (rule, target) =>
    rule.scopes.map fun scope => ⟨scope.chain.text.toList, rule.rule, target⟩

/-- An entry is re-pointed by the number it had. -/
structure Attr.Follows (moves : List RenumberMove) (attr after : Attr) :
    Prop where
  kept : after = { attr with rule := after.rule }
  moved : ∀ move ∈ moves, move.chain = attr.chain →
    attr.rule = some move.source → after.rule = some move.target
  stays : (∀ move ∈ moves, move.chain = attr.chain →
    attr.rule ≠ some move.source) → after = attr

/-- The entry is of the rule, under the number it is given. -/
def Attr.Names (attr : Attr) (rule : FirewallRule) (number : Nat) : Prop :=
  attr.rule = some number ∧
    ∃ scope ∈ rule.scopes, attr.chain = scope.chain.text.toList

namespace Attribution

theorem moveOf_eq_some {moves : List RenumberMove} {attr : Attr}
    {move : RenumberMove} (found : moveOf moves attr = some move) :
    move ∈ moves ∧ move.chain = attr.chain ∧ attr.rule = some move.source := by
  obtain ⟨rule, numbered, first⟩ := Option.bind_eq_some_iff.mp found
  have applies := List.find?_some first
  rw [decide_eq_true_eq] at applies
  obtain ⟨chain, source⟩ := applies
  refine ⟨List.mem_of_find?_eq_some first, chain, ?_⟩
  rw [numbered, source]

theorem moveOf_eq_none {moves : List RenumberMove} {attr : Attr}
    (absent : moveOf moves attr = none) {move : RenumberMove}
    (member : move ∈ moves) (chain : move.chain = attr.chain) :
    attr.rule ≠ some move.source := by
  intro numbered
  unfold moveOf at absent
  rw [numbered, Option.bind_some, List.find?_eq_none] at absent
  exact absent move member (decide_eq_true ⟨chain, rfl⟩)

theorem renumberAttr_follows {moves : List RenumberMove}
    (distinct : (moves.map RenumberMove.place).Nodup) (attr : Attr) :
    attr.Follows moves (renumberAttr moves attr) := by
  unfold renumberAttr
  cases found : moveOf moves attr with
  | none =>
      refine ⟨rfl, ?_, fun _ => rfl⟩
      intro move member chain numbered
      exact absurd numbered (moveOf_eq_none found member chain)
  | some move =>
      obtain ⟨member, chain, numbered⟩ := moveOf_eq_some found
      refine ⟨rfl, ?_, ?_⟩
      · intro other among chain' numbered'
        have source := Option.some.inj (numbered.symm.trans numbered')
        have same : move = other := by
          apply List.inj_on_of_nodup_map distinct member among
          exact Prod.ext (chain.trans chain'.symm) source
        rw [same]
      · intro none'
        exact absurd numbered (none' move member chain)

theorem lookup_renumber (cache : Attribution) (moves : List RenumberMove)
    (key : AttrKey) :
    (cache.renumber moves).2.lookup key =
      (cache.lookup key).map (renumberAttr moves) :=
  Table.get_mapValues _ _ _

end Attribution

/-! ## The moves of a reorder -/

theorem RuleChain.text_injective {left right : RuleChain}
    (same : left.text.toList = right.text.toList) : left = right := by
  have texts : left.text = right.text := String.toList_injective same
  have apart : ∀ (chain : Firewall.BaseChain) (ruleset : String),
      (RuleChain.base chain).text ≠ (RuleChain.name ruleset).text := by
    intro chain ruleset equal
    have letters := congrArg String.toList equal
    rw [RuleChain.text, RuleChain.text, String.toList_append] at letters
    cases chain <;> cases letters
  cases left with
  | base chain =>
      cases right with
      | base other =>
          cases chain <;> cases other <;> first | rfl | cases same
      | name ruleset => exact absurd texts (apart chain ruleset)
  | name ruleset =>
      cases right with
      | base chain => exact absurd texts.symm (apart chain ruleset)
      | name other =>
          rw [RuleChain.text, RuleChain.text, String.toList_append,
            String.toList_append] at same
          exact congrArg RuleChain.name
            (String.toList_injective (List.append_cancel_left same))

section Reorders

variable {schema : Schema} {locale : Firewall.Locale} {root : Cfg}
  {orderedRules : List FirewallRule}

theorem mem_attributionMoves {move : RenumberMove} :
    move ∈ attributionMoves orderedRules ↔
      ∃ (index : Nat) (rule : FirewallRule) (scope : RuleScope),
        orderedRules[index]? = some rule ∧ rule.rule ≠ orderNumber index ∧
          scope ∈ rule.scopes ∧
          move = ⟨scope.chain.text.toList, rule.rule, orderNumber index⟩ := by
  simp only [attributionMoves, List.mem_flatMap, Prod.exists,
    mem_renumberTargets, List.mem_map]
  constructor
  · rintro ⟨rule, _, ⟨index, present, rfl, moved⟩, scope, inScopes, rfl⟩
    exact ⟨index, rule, scope, present, moved, inScopes, rfl⟩
  · rintro ⟨index, rule, scope, present, moved, inScopes, rfl⟩
    exact ⟨rule, _, ⟨index, present, rfl, moved⟩, scope, inScopes, rfl⟩

/-- No two moves apply to one entry. -/
theorem attributionMoves_distinct
    (ordering : Firewall.Ordering schema locale root orderedRules) :
    ((attributionMoves orderedRules).map RenumberMove.place).Nodup := by
  have fewer : ((renumberTargets orderedRules).map Prod.fst).Sublist
      orderedRules := by
    have whole : (orderedRules.zipIdx.map fun (rule, index) =>
        (rule, orderNumber index)).map Prod.fst = orderedRules := by
      rw [List.map_map]
      exact List.zipIdx_map_fst 0 orderedRules
    have part : ((renumberTargets orderedRules).map Prod.fst).Sublist
        ((orderedRules.zipIdx.map fun (rule, index) =>
          (rule, orderNumber index)).map Prod.fst) :=
      List.filter_sublist.map Prod.fst
    rw [whole] at part
    exact part
  have places := ((fewer.flatMap Firewall.FirewallRule.placements).map
    Firewall.Placement.place).nodup ordering.nodup_places
  have texts : Function.Injective fun place : RuleChain × Nat =>
      (place.1.text.toList, place.2) := by
    intro left right same
    obtain ⟨chains, numbers⟩ := Prod.mk.inj same
    exact Prod.ext (RuleChain.text_injective chains) numbers
  have moves : (attributionMoves orderedRules).map RenumberMove.place =
      ((((renumberTargets orderedRules).map Prod.fst).flatMap
        Firewall.FirewallRule.placements).map Firewall.Placement.place).map
          fun place => (place.1.text.toList, place.2) := by
    rw [attributionMoves, List.flatMap_map, List.map_flatMap, List.map_flatMap,
      List.map_flatMap]
    apply List.flatMap_congr
    rintro ⟨rule, target⟩ _
    rw [Firewall.FirewallRule.placements, List.map_map, List.map_map,
      List.map_map]
    rfl
  rw [moves]
  exact places.map texts

/-- What is attributed to a rule of the order stays attributed to it. -/
theorem Attr.Names.follows {attr after : Attr} {index : Nat}
    {rule : FirewallRule} (names : attr.Names rule rule.rule)
    (ordering : Firewall.Ordering schema locale root orderedRules)
    (present : orderedRules[index]? = some rule)
    (follows : attr.Follows (attributionMoves orderedRules) after) :
    after.Names rule (orderNumber index) := by
  obtain ⟨numbered, scope, inScopes, chain⟩ := names
  have sameChain : after.chain = attr.chain := by
    rw [follows.kept]
  refine ⟨?_, scope, inScopes, sameChain.trans chain⟩
  by_cases stays : rule.rule = orderNumber index
  · -- A rule in its place has no move, nor has another rule of its chain and
    -- number.
    rw [follows.stays, numbered, stays]
    intro move member chain' numbered'
    obtain ⟨other, holder, probe, found, moved, inHolder, rfl⟩ :=
      mem_attributionMoves.mp member
    have chains := RuleChain.text_injective (chain'.trans chain)
    have numbers := Option.some.inj (numbered'.symm.trans numbered)
    have same := ordering.index_unique found present inHolder inScopes chains
      numbers
    rw [same, present] at found
    cases found
    rw [same] at moved
    exact moved stays
  · have member : (⟨scope.chain.text.toList, rule.rule, orderNumber index⟩ :
        RenumberMove) ∈ attributionMoves orderedRules :=
      mem_attributionMoves.mpr
        ⟨index, rule, scope, present, stays, inScopes, rfl⟩
    exact follows.moved _ member chain.symm numbered

end Reorders

namespace Attribution

/-- Entries follow any moves of distinct places by the number they had, and the
moves of a reorder keep every entry with its rule. -/
theorem renumber_follows :
    (∀ (cache : Attribution) (moves : List RenumberMove),
      (moves.map RenumberMove.place).Nodup →
        (∀ key, Option.Rel (Attr.Follows moves) (cache.lookup key)
          ((cache.renumber moves).2.lookup key)) ∧
        (cache.renumber moves).2.blocked = cache.blocked) ∧
    (∀ (schema : Schema) (locale : Firewall.Locale) (root : Cfg)
        (orderedRules : List FirewallRule),
      Firewall.Ordering schema locale root orderedRules →
      ((attributionMoves orderedRules).map RenumberMove.place).Nodup ∧
      ∀ (cache : Attribution) (key : AttrKey) (attr : Attr) (index : Nat)
          (rule : FirewallRule),
        orderedRules[index]? = some rule → cache.lookup key = some attr →
        attr.Names rule rule.rule →
        ∃ after, (cache.renumber (attributionMoves orderedRules)).2.lookup key =
          some after ∧ after.Names rule (orderNumber index)) := by
  constructor
  · intro cache moves distinct
    refine ⟨fun key => ?_, rfl⟩
    rw [lookup_renumber]
    cases cache.lookup key with
    | none => exact .none
    | some attr => exact .some (renumberAttr_follows distinct attr)
  · intro schema locale root orderedRules ordering
    have distinct := attributionMoves_distinct ordering
    refine ⟨distinct, ?_⟩
    intro cache key attr index rule present found names
    refine ⟨renumberAttr (attributionMoves orderedRules) attr, ?_, ?_⟩
    · rw [lookup_renumber, found, Option.map_some]
    · exact names.follows ordering present (renumberAttr_follows distinct attr)

theorem zonedConfig_moves :
    ((attributionMoves (Firewall.fetchFirewall Firewall.codepoints
      Firewall.zonedConfig).rules.reverse).map RenumberMove.place).Nodup := by
  have ordering : Firewall.Ordering Firewall.vyosSchema Firewall.codepoints
      Firewall.zonedConfig (Firewall.fetchFirewall Firewall.codepoints
        Firewall.zonedConfig).rules.reverse :=
    { rendered := Firewall.rendered_of_check rfl (by decide +kernel)
      permutation := List.reverse_perm _ }
  exact (renumber_follows.2 _ _ _ _ ordering).1

end Attribution

end QuartzFire.Monitoring
