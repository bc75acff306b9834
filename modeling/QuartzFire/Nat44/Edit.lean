import QuartzFire.Nat44.Form

/-!
# What an edit of a NAT rule writes

The pieces of an edit write apart from each other, all below the rule.
-/

namespace QuartzFire.Nat44

open ConfigTree Editing
open Firewall (Cfg Path VyosCommand trimmed)

variable (live : Option NatRule) (u : NatRuleUpdate)

theorem dropAddress_local : Below ["source", "address"] (dropAddress live u) :=
  .ite (fun _ => .single (List.prefix_refl _)) fun _ => .nil

theorem dropGroup_local : Below ["source", "group"] (dropGroup live u) :=
  .ite (fun _ => .single (List.prefix_refl _)) fun _ => .nil

theorem putAddress_local : Below ["source", "address"] (putAddress live u) := by
  unfold putAddress
  split
  · exact .ite (fun _ => .single (List.prefix_append _ [_])) fun _ => .nil
  · exact .nil

theorem putGroup_local : Below ["source", "group"] (putGroup live u) := by
  unfold putGroup
  split
  · exact .ite (fun _ => .single (List.prefix_append _ (splitSpaces _)))
      fun _ => .nil
  · exact .nil

theorem sourceMatch_local :
    Block.Local ⟨[["source", "address"], ["source", "group"]],
      sourceMatch live u⟩ := by
  have address : ∀ path, ["source", "address"] <+: path →
      ∃ leaf ∈ [["source", "address"], ["source", "group"]], leaf <+: path :=
    fun path below => ⟨_, by simp, below⟩
  have group : ∀ path, ["source", "group"] <+: path →
      ∃ leaf ∈ [["source", "address"], ["source", "group"]], leaf <+: path :=
    fun path below => ⟨["source", "group"], by simp, below⟩
  exact .append (.append (.append
    (Along.mono address (dropAddress_local live u))
    (Along.mono group (dropGroup_local live u)))
    (Along.mono address (putAddress_local live u)))
    (Along.mono group (putGroup_local live u))

theorem interfaceMatch_local :
    Below [u.natSection.ifaceKey] (interfaceMatch live u) := by
  unfold interfaceMatch
  refine .ite (fun _ => .nil) fun _ => .append ?_ ?_
  · exact .ite (fun _ => .single (List.prefix_refl _)) fun _ => .nil
  · split
    · exact .single (List.prefix_append _ ["name", _])
    · exact .nil

theorem ruleBlocks_separate : Separate (ruleBlocks live u) where
  diverge := by
    simp only [ruleBlocks, List.map_cons, List.map_nil]
    cases u.natSection <;> decide
  each := by
    simp only [ruleBlocks, List.forall_mem_cons, List.not_mem_nil,
      IsEmpty.forall_iff, implies_true, and_true]
    exact ⟨.ofBelow (leaf_local _ _ _), sourceMatch_local live u,
      .ofBelow (leaf_local _ _ _), .ofBelow (leaf_local _ _ _),
      .ofBelow (leaf_local _ _ _), .ofBelow (leaf_local _ _ _),
      .ofBelow (leaf_local _ _ _), .ofBelow (leaf_local _ _ _),
      .ofBelow (interfaceMatch_local live u), .ofBelow (flag_local _ _ _)⟩

variable {live u}

theorem address_eq_nil_iff :
    dropAddress live u = [] ∧ putAddress live u = [] ↔
      u.sourceAddress.bind trimmed = live.bind NatRule.source := by
  unfold dropAddress putAddress
  cases u.sourceAddress.bind trimmed with
  | none => simp [eq_comm]
  | some address => simp

theorem group_eq_nil_iff :
    dropGroup live u = [] ∧ putGroup live u = [] ↔
      u.sourceGroup.bind trimmed = live.bind NatRule.sourceGroup := by
  have drops : dropGroup live u = [] ↔ ¬ dropsGroup live u := by
    simp [dropGroup]
  rw [drops, dropsGroup, putGroup]
  cases u.sourceGroup.bind trimmed with
  | none => simp [eq_comm]
  | some group =>
      simp only [reduceCtorEq, false_or, not_and, not_not]
      constructor
      · rintro ⟨_, quiet⟩
        simpa using quiet
      · intro same
        simp [← same]

theorem sourceMatch_eq_nil_iff :
    sourceMatch live u = [] ↔
      u.sourceAddress.bind trimmed = live.bind NatRule.source ∧
        u.sourceGroup.bind trimmed = live.bind NatRule.sourceGroup := by
  rw [← address_eq_nil_iff, ← group_eq_nil_iff, sourceMatch,
    List.append_eq_nil_iff, List.append_eq_nil_iff, List.append_eq_nil_iff]
  tauto

theorem interfaceMatch_eq_nil_iff :
    interfaceMatch live u = [] ↔
      u.interface.bind trimmed = live.bind NatRule.interface := by
  unfold interfaceMatch
  dsimp only
  split
  · rename_i same
    simp [same]
  · rename_i differs
    cases wants : u.interface.bind trimmed with
    | some iface => simp_all
    | none =>
        rw [wants] at differs
        simp [differs, Ne.symm differs]

/-- An edit in place pushes what its blocks do, below the rule. -/
theorem diffNatRule_of_live {existing : List NatRule} {row : NatRule}
    (distinct : (existing.map NatRule.rule).Nodup) (listed : row ∈ existing)
    (same : u.rule = row.rule) (stays : u.moved = false) :
    diffNatRule existing u = (laid (ruleBlocks (some row) u)).map
      (Command.under (ruleBase u.natSection u.rule)) := by
  have found := find?_of_distinct distinct listed
  rw [← same] at found
  have kept : dropMoved u = [] := by
    unfold dropMoved
    cases original : u.originalRule with
    | none => rfl
    | some number => simpa [NatRuleUpdate.moved, original] using stays
  simp [diffNatRule, liveRule, stays, found, kept, created]

end QuartzFire.Nat44
