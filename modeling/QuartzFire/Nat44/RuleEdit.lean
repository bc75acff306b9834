import QuartzFire.Nat44.RuleFields

/-!
# Editing a NAT rule

An edit makes one rule of its number that reads as the update says, drops the
old one of a renumber, and leaves every other rule.  What the form does not
show of the edited rule is still there exactly when the rule is not moved away
from it and its group node is not dropped with more in it.
-/

namespace QuartzFire.Nat44

open ConfigTree Editing
open Firewall (Cfg Path VyosCommand trimmed ruleNumber)

/-! ## The rules of a section -/

section Rows

variable {kinds : Kinds String} {root after : Cfg}

theorem ruleBase_nodes (schema : Schema kinds) (side : NatSection)
    (number : Nat) : NodePath kinds (ruleBase side number) :=
  schema.rules side (toString number)

theorem diverges_key {base : Path} {key other : String}
    (different : key ≠ other) : Diverges (base ++ [key]) (base ++ [other]) := by
  rw [diverges_append_left]
  exact diverges_of_length rfl (by simpa using different)

theorem diverges_ruleBase {side : NatSection} {number other : Nat}
    (different : number ≠ other) :
    Diverges (ruleBase side number) (ruleBase side other) := by
  show Diverges (["nat", side.text, "rule"] ++ [_])
    (["nat", side.text, "rule"] ++ [_])
  refine diverges_key fun same => ?_
  have numbers := congrArg ruleNumber same
  rw [Firewall.ruleNumber_toString, Firewall.ruleNumber_toString] at numbers
  exact different numbers

theorem ruleNode_of_subtree (schema : Schema kinds) {side : NatSection}
    (rendered : Rendered kinds root side) {number : Nat} {body : Cfg}
    (found : subtree (ruleBase side number) root = some body) :
    RuleNode (kinds.below (ruleBase side number)) side body where
  conforms := by
    have below := rendered.conforms.slice (ruleBase_nodes schema side number)
    rwa [slice_of_found found] at below
  shape := schema.body side (toString number)
  groups := schema.groups side (toString number)
  words := by
    intro type leaf inside
    have path : subtree (ruleBase side number ++ ["source", "group"] ++ [type])
        root = some leaf := by
      rw [List.append_assoc, subtree_append, found]
      exact inside
    have single := schema.groups side (toString number) type
    have fits := rendered.conforms.fits_subtree path
    have word := rendered.types (toString number) type leaf path
    cases fits with
    | single _ => exact ⟨_, rfl, word, rendered.names _ type _ path⟩
    | valueless other | one other | several other | node other =>
        exact absurd (single.symm.trans other) (by decide)

theorem ruleNode_empty (schema : Schema kinds) (side : NatSection)
    (number : Nat) :
    RuleNode (kinds.below (ruleBase side number)) side (.node []) where
  conforms := .empty
  shape := schema.body side (toString number)
  groups := schema.groups side (toString number)
  words := by
    intro type leaf inside
    cases inside

/-- A rule is listed plainly or lifted into a mapping. -/
theorem plain_or_paired {side : NatSection} {row : NatRule}
    (listed : row ∈ parseRules (natConfig root) side) :
    row ∈ (fetchNat44 root).rules side ∨
      row.rule ∈ (fetchNat44 root).staticNat.map StaticNatMapping.rule := by
  by_cases paired : row.rule ∈
      (fetchNat44 root).staticNat.map StaticNatMapping.rule
  · exact .inr paired
  · refine .inl ?_
    cases side <;> exact List.mem_filter.mpr ⟨listed, decide_eq_true paired⟩

/-- A number that no rule has is not in the configuration. -/
theorem subtree_of_free (schema : Schema kinds) {side : NatSection}
    (rendered : Rendered kinds root side) {number : Nat}
    (free : ∀ row ∈ parseRules (natConfig root) side, row.rule ≠ number) :
    subtree (ruleBase side number) root = none := by
  cases found : subtree (ruleBase side number) root with
  | none => rfl
  | some body =>
      have same : (parseRule side (toString number) body).rule = number :=
        Firewall.ruleNumber_toString number
      refine absurd same (free _ ((mem_parseRules schema rendered _).mpr
        ⟨body, ?_, ?_⟩))
      · rw [same, found]
      · rw [same]

/-- The rules that are not at some numbers, as they are listed. -/
theorem perm_filter_parseRules (schema : Schema kinds) {side : NatSection}
    (rendered : Rendered kinds root side) (numbers : List Nat) :
    (((ruleNode (natConfig root) side).entries.filter
        (·.1 ∉ numbers.map toString)).map fun entry =>
          parseRule side entry.1 entry.2).Perm
      ((parseRules (natConfig root) side).filter (·.rule ∉ numbers)) := by
  have listed := conforms_ruleNode schema rendered.conforms side
  refine .trans (.of_eq ?_) ((perm_parseRules _ side).filter _).symm
  rw [List.filter_map]
  congr 1
  refine List.filter_congr fun entry member => ?_
  have found := listed.mem_entries.mp (show (entry.1, entry.2) ∈ _ from member)
  rw [child_ruleNode] at found
  have canonical := rendered.decimal entry.1 entry.2 found
  rw [Function.comp_apply, rule_parseRule, decide_eq_decide]
  refine not_congr ⟨fun inside => ?_, fun inside => ?_⟩
  · obtain ⟨number, one, same⟩ := List.mem_map.mp inside
    rwa [← same, Firewall.ruleNumber_toString]
  · exact List.mem_map.mpr ⟨_, inside, canonical.symm⟩

section Listing

variable {side : NatSection} {numbers : List Nat}

/-- The list after an edit at some numbers that leaves one rule at them. -/
theorem parseRules_put (schema : Schema kinds)
    (rendered : Rendered kinds root side)
    (conforms : Conforms kinds after) {number : Nat} {body : Cfg}
    (found : subtree (ruleBase side number) after = some body)
    (among : number ∈ numbers)
    (gone : ∀ other ∈ numbers, other ≠ number →
      subtree (ruleBase side other) after = none)
    (kept : ∀ key ∉ numbers.map toString,
      subtree ["nat", side.text, "rule", key] after =
        subtree ["nat", side.text, "rule", key] root) :
    (parseRules (natConfig after) side).Perm
      (parseRule side (toString number) body ::
        (parseRules (natConfig root) side).filter (·.rule ∉ numbers)) := by
  have old := conforms_ruleNode schema rendered.conforms side
  have new := conforms_ruleNode schema conforms side
  have entries : (ruleNode (natConfig after) side).entries.Perm
      ((toString number, body) :: (ruleNode (natConfig root) side).entries.filter
        (·.1 ∉ numbers.map toString)) := by
    refine old.entries_put new ?_ ?_ (List.mem_map_of_mem among) ?_
    · intro key outside
      rw [child_ruleNode, child_ruleNode, kept key outside]
    · rw [child_ruleNode]
      exact found
    · intro key inside different
      obtain ⟨other, one, rfl⟩ := List.mem_map.mp inside
      rw [child_ruleNode]
      exact gone other one fun same => different (congrArg toString same)
  refine (perm_parseRules _ side).trans ((entries.map _).trans ?_)
  rw [List.map_cons]
  exact (perm_filter_parseRules schema rendered numbers).cons _

/-- The list after some numbers are gone. -/
theorem parseRules_gone (schema : Schema kinds)
    (rendered : Rendered kinds root side) (conforms : Conforms kinds after)
    (gone : ∀ other ∈ numbers, subtree (ruleBase side other) after = none)
    (kept : ∀ key ∉ numbers.map toString,
      subtree ["nat", side.text, "rule", key] after =
        subtree ["nat", side.text, "rule", key] root) :
    (parseRules (natConfig after) side).Perm
      ((parseRules (natConfig root) side).filter (·.rule ∉ numbers)) := by
  have old := conforms_ruleNode schema rendered.conforms side
  have new := conforms_ruleNode schema conforms side
  have entries : (ruleNode (natConfig after) side).entries.Perm
      ((ruleNode (natConfig root) side).entries.filter
        (·.1 ∉ numbers.map toString)) := by
    refine old.entries_kept new ?_ ?_
    · intro key outside
      rw [child_ruleNode, child_ruleNode, kept key outside]
    · intro key inside
      obtain ⟨other, one, rfl⟩ := List.mem_map.mp inside
      rw [child_ruleNode]
      exact gone other one
  exact (perm_parseRules _ side).trans ((entries.map _).trans
    (perm_filter_parseRules schema rendered numbers))

/-- A section that is not touched lists the same. -/
theorem parseRules_kept (schema : Schema kinds) (before : Conforms kinds root)
    (conforms : Conforms kinds after)
    (kept : subtree ["nat", side.text, "rule"] after =
      subtree ["nat", side.text, "rule"] root) :
    parseRules (natConfig after) side = parseRules (natConfig root) side := by
  rw [parseRules, parseRules, ruleNode_slice schema conforms,
    ruleNode_slice schema before, slice, slice, kept]

end Listing

end Rows

/-! ## One edit -/

section Edit

variable {kinds : Kinds String} {root : Cfg} {existing : List NatRule}
  {u : NatRuleUpdate}

/-- The rule compared with is the one at the new number. -/
def Targets (root : Cfg) (existing : List NatRule) (u : NatRuleUpdate) : Prop :=
  liveRule existing u = (subtree (ruleBase u.natSection u.rule) root).map
    (parseRule u.natSection (toString u.rule))

theorem dropMoved_spares {probe : Path}
    (elsewhere : ∀ number, u.originalRule = some number → number ≠ u.rule →
      Diverges (ruleBase u.natSection number) probe) :
    Spares probe (dropMoved u) := by
  unfold dropMoved
  cases original : u.originalRule with
  | none => exact .nil
  | some number =>
      exact .ite (fun moved => .single (elsewhere number original moved))
        fun _ => .nil

theorem dropMoved_spares_new :
    Spares (ruleBase u.natSection u.rule) (dropMoved u) :=
  dropMoved_spares fun _ _ moved => diverges_ruleBase moved

theorem proper_written (live : Option NatRule) (u : NatRuleUpdate) :
    [] ∉ written (ruleBlocks live u) := by
  simp [written, ruleBlocks]

/-- The rule of the new number after an edit. -/
theorem subtree_edit (schema : Schema kinds)
    (rendered : Rendered kinds root u.natSection)
    (targets : Targets root existing u) :
    subtree (ruleBase u.natSection u.rule)
        (executeAll kinds (diffNatRule existing u) root) =
      some (executeAll (kinds.below (ruleBase u.natSection u.rule))
        (laid (ruleBlocks (liveRule existing u) u))
        (slice (ruleBase u.natSection u.rule) root)) := by
  have before : Conforms kinds (executeAll kinds (dropMoved u) root) :=
    rendered.conforms.executeAll
  have same : subtree (ruleBase u.natSection u.rule)
      (executeAll kinds (dropMoved u) root) =
        subtree (ruleBase u.natSection u.rule) root :=
    Spares.subtree_eq dropMoved_spares_new root
  have present : (liveRule existing u).isSome =
      (subtree (ruleBase u.natSection u.rule)
        (executeAll kinds (dropMoved u) root)).isSome := by
    rw [same, targets, Option.isSome_map]
  rw [diffNatRule, executeAll_append, present,
    (ruleBlocks_separate _ u).subtree_saved (proper_written _ u)
      (ruleBase_nodes schema _ _) before, slice, same]
  rfl

/-- The row of the new number after an edit. -/
theorem parseRule_edit (schema : Schema kinds)
    (rendered : Rendered kinds root u.natSection)
    (targets : Targets root existing u) (sound : u.Sound) :
    parseRule u.natSection (toString u.rule)
        (executeAll (kinds.below (ruleBase u.natSection u.rule))
          (laid (ruleBlocks (liveRule existing u) u))
          (slice (ruleBase u.natSection u.rule) root)) =
      (parseRule u.natSection (toString u.rule)
        (slice (ruleBase u.natSection u.rule) root)).updated u := by
  unfold Targets at targets
  cases found : subtree (ruleBase u.natSection u.rule) root with
  | none =>
      rw [found, Option.map_none] at targets
      rw [targets, slice, found, Option.getD_none]
      exact parseRule_edited (ruleNode_empty schema _ _) (mirrors_none _ _) sound
  | some body =>
      rw [found, Option.map_some] at targets
      rw [targets, slice_of_found found]
      exact parseRule_edited (ruleNode_of_subtree schema rendered found)
        (mirrors_some _) sound

/-- What is apart from the rule is as it was. -/
theorem subtree_edit_of_diverges {probe : Path}
    (elsewhere : Diverges (ruleBase u.natSection u.rule) probe)
    (old : ∀ number, u.originalRule = some number → number ≠ u.rule →
      Diverges (ruleBase u.natSection number) probe) :
    subtree probe (executeAll kinds (diffNatRule existing u) root) =
      subtree probe root := by
  have spared : Spares probe (diffNatRule existing u) :=
    .append (dropMoved_spares old) (spares_under elsewhere _)
  exact spared.subtree_eq root

/-- A renumber leaves nothing at the old number. -/
theorem subtree_edit_old {number : Nat} (original : u.originalRule = some number)
    (moved : number ≠ u.rule) :
    subtree (ruleBase u.natSection number)
      (executeAll kinds (diffNatRule existing u) root) = none := by
  have dropped : dropMoved u = [.delete (ruleBase u.natSection number)] := by
    rw [dropMoved, original]
    exact if_pos moved
  have spared : Spares (ruleBase u.natSection number)
      ((created (liveRule existing u).isSome
        (laid (ruleBlocks (liveRule existing u) u))).map
          (Command.under (ruleBase u.natSection u.rule))) :=
    spares_under (diverges_ruleBase moved.symm) _
  rw [diffNatRule, executeAll_append, dropped]
  refine (spared.subtree_eq _).trans ?_
  exact subtree_delete_below (by simp [ruleBase]) (List.prefix_refl _) root

/-- The numbers an edit is about. -/
def NatRuleUpdate.numbers (u : NatRuleUpdate) : List Nat :=
  u.rule :: u.originalRule.toList

theorem diverges_of_not_mem {numbers : List Nat} {side : NatSection}
    {key : String} (outside : key ∉ numbers.map toString) {number : Nat}
    (among : number ∈ numbers) :
    Diverges (ruleBase side number) ["nat", side.text, "rule", key] := by
  show Diverges (["nat", side.text, "rule"] ++ [_])
    (["nat", side.text, "rule"] ++ [_])
  refine diverges_key fun same => outside ?_
  rw [← same]
  exact List.mem_map_of_mem among

theorem diverges_section {side other : NatSection} (different : side ≠ other)
    (number : Nat) (path : Path) :
    Diverges (ruleBase side number) ("nat" :: other.text :: path) := by
  rw [ruleBase, diverges_cons, diverges_cons]
  intro _ same
  cases side <;> cases other <;> simp_all [NatSection.text]

/-- The section after an edit: the rule at its new number, and the rules of the
other numbers. -/
theorem parseRules_edit (schema : Schema kinds)
    (rendered : Rendered kinds root u.natSection)
    (targets : Targets root existing u) (sound : u.Sound) :
    (parseRules (natConfig (executeAll kinds (diffNatRule existing u) root))
        u.natSection).Perm
      ((parseRule u.natSection (toString u.rule)
          (slice (ruleBase u.natSection u.rule) root)).updated u ::
        (parseRules (natConfig root) u.natSection).filter
          (·.rule ∉ u.numbers)) := by
  rw [← parseRule_edit schema rendered targets sound]
  refine parseRules_put schema rendered rendered.conforms.executeAll
    (subtree_edit schema rendered targets) List.mem_cons_self ?_ ?_
  · intro other inside different
    have original : u.originalRule = some other := by
      simpa [NatRuleUpdate.numbers, different] using inside
    exact subtree_edit_old original different
  · intro key outside
    refine subtree_edit_of_diverges
      (diverges_of_not_mem outside List.mem_cons_self) ?_
    intro number original _
    exact diverges_of_not_mem outside
      (by simp [NatRuleUpdate.numbers, original])

theorem parseRules_edit_other (schema : Schema kinds)
    (conforms : Conforms kinds root) {side : NatSection}
    (different : u.natSection ≠ side) :
    parseRules (natConfig (executeAll kinds (diffNatRule existing u) root))
      side = parseRules (natConfig root) side :=
  parseRules_kept schema conforms conforms.executeAll
    (subtree_edit_of_diverges (diverges_section different _ _)
      fun _ _ _ => diverges_section different _ _)

end Edit

/-! ## Deletions -/

def oneRule : Cfg :=
  .node [("nat", .node [("source", .node [("rule", .node
    [("10", .node [])])])])]

end QuartzFire.Nat44
