import QuartzFire.Firewall.Model
import QuartzFire.Nat44.RuleEdit
import QuartzFire.Nat44.Untouched

/-!
# What the form does not show of a rule

A rule may hold more than the form shows.  In place it stays, unless the group
node goes with a change of the group's type; a renumber builds the rule from
the form alone.
-/

namespace QuartzFire.Nat44

open ConfigTree Editing
open Firewall (Cfg Path VyosCommand trimmed startsWith FirewallAlias)

/-! ## Paths an edit is about -/

section Leaves

variable (row : NatRule) (u : NatRuleUpdate)

/-- The groups the rule shows and is to show. -/
def groupLeaves : List Path :=
  ((row.sourceGroup.bind groupType).toList ++
    ((u.sourceGroup.bind trimmed).bind groupType).toList).map fun type =>
      ["source", "group", type]

/-- The interface by name, or all of its match when another one is wanted. -/
def interfaceLeaf : Path :=
  if u.interface.bind trimmed = row.interface then
    [u.natSection.ifaceKey, "name"]
  else [u.natSection.ifaceKey]

/-- Where the fields of the form are. -/
def shownLeaves : List Path :=
  [["description"], ["source", "address"], ["source", "port"],
    ["destination", "address"], ["destination", "port"], ["protocol"],
    ["translation", "address"], ["translation", "masquerade"],
    ["translation", "port"], ["disable"]] ++
  [interfaceLeaf row u] ++ groupLeaves row u

/-- A path apart from all the form is about. -/
def Unshown (probe : Path) : Prop :=
  ∀ leaf ∈ shownLeaves row u, Diverges leaf probe

instance (probe : Path) : Decidable (Unshown row u probe) :=
  inferInstanceAs (Decidable (∀ leaf ∈ shownLeaves row u, Diverges leaf probe))

variable {row u}

theorem groupType_isSome (reference : String) :
    ∃ type, groupType reference = some type := by
  cases split : splitSpaces reference with
  | nil =>
      rw [splitSpaces, List.map_eq_nil_iff] at split
      exact absurd split (List.splitOn_ne_nil _ _)
  | cons type rest => exact ⟨type, by rw [groupType, split]; rfl⟩

theorem splitSpaces_cons {reference type : String}
    (shown : groupType reference = some type) :
    ∃ rest, splitSpaces reference = type :: rest := by
  rw [groupType, List.head?_eq_some_iff] at shown
  exact shown

theorem mem_shownLeaves_group {type : String}
    (shown : ∃ reference, (row.sourceGroup = some reference ∨
      u.sourceGroup.bind trimmed = some reference) ∧
        groupType reference = some type) :
    ["source", "group", type] ∈ shownLeaves row u := by
  obtain ⟨reference, own | wanted, typed⟩ := shown
  · simp [shownLeaves, groupLeaves, own, typed]
  · simp [shownLeaves, groupLeaves, wanted, typed]

/-- Every command of an edit writes where the form is about, but for the one
that drops the group node. -/
theorem edit_along {live : Option NatRule}
    (own : live = some row ∨ live = none) :
    ∀ command ∈ laid (ruleBlocks live u),
      (∃ leaf ∈ shownLeaves row u, leaf <+: command.path) ∨
        dropsGroup live u ∧ command = .delete ["source", "group"] := by
  have fixed : ∀ {path : Path} {commands : List VyosCommand},
      path ∈ shownLeaves row u → Below path commands →
      ∀ command ∈ commands,
        (∃ leaf ∈ shownLeaves row u, leaf <+: command.path) ∨
          dropsGroup live u ∧ command = .delete ["source", "group"] :=
    fun shown below command member => .inl ⟨_, shown, below command member⟩
  simp only [laid, ruleBlocks, List.forall_mem_flatMap, List.forall_mem_cons,
    List.not_mem_nil, IsEmpty.forall_iff, implies_true, and_true]
  refine ⟨fixed (by simp [shownLeaves]) (leaf_local _ _ _), ?_,
    fixed (by simp [shownLeaves]) (leaf_local _ _ _),
    fixed (by simp [shownLeaves]) (leaf_local _ _ _),
    fixed (by simp [shownLeaves]) (leaf_local _ _ _),
    fixed (by simp [shownLeaves]) (leaf_local _ _ _),
    fixed (by simp [shownLeaves]) (leaf_local _ _ _),
    fixed (by simp [shownLeaves]) (leaf_local _ _ _), ?_,
    fixed (by simp [shownLeaves]) (flag_local _ _ _)⟩
  · intro command member
    simp only [sourceMatch, List.mem_append] at member
    rcases member with ((address | drop) | address) | put
    · exact fixed (by simp [shownLeaves]) (dropAddress_local _ _) _ address
    · refine .inr ?_
      unfold dropGroup at drop
      split at drop
      · exact ⟨‹_›, List.mem_singleton.mp drop⟩
      · cases drop
    · exact fixed (by simp [shownLeaves]) (putAddress_local _ _) _ address
    · refine .inl ?_
      unfold putGroup at put
      split at put
      · rename_i reference wants
        split at put
        · obtain ⟨type, typed⟩ := groupType_isSome reference
          obtain ⟨rest, split⟩ := splitSpaces_cons typed
          rw [List.mem_singleton.mp put, split]
          exact ⟨_, mem_shownLeaves_group ⟨reference, .inr wants, typed⟩,
            List.prefix_append _ rest⟩
        · cases put
      · cases put
  · intro command member
    refine .inl ⟨interfaceLeaf row u, by simp [shownLeaves], ?_⟩
    have below := interfaceMatch_local live u command member
    unfold interfaceLeaf
    split
    · rename_i same
      -- With an unchanged interface there is nothing but a name to set.
      rcases own with rfl | rfl
      · rw [interfaceMatch_same same] at member
        cases member
      · unfold interfaceMatch at member
        simp only [Option.bind_none, ne_eq, not_true_eq_false, if_false,
          List.nil_append] at member
        split at member
        · cases member
        · split at member
          · rw [List.mem_singleton.mp member]
            exact List.prefix_append _ [_]
          · cases member
    · exact below

/-- A group of a type that is neither shown nor wanted is apart. -/
theorem unshown_group {type : String}
    (hidden : ["source", "group", type] ∉ shownLeaves row u) :
    Unshown row u ["source", "group", type] := by
  intro leaf shown
  have different : leaf ≠ ["source", "group", type] := fun same =>
    hidden (same ▸ shown)
  simp only [shownLeaves, groupLeaves, interfaceLeaf, List.mem_append,
    List.mem_cons, List.not_mem_nil, or_false, List.mem_map] at shown
  rcases shown with (fixed | iface) | ⟨other, _, rfl⟩
  · rcases fixed with rfl | rfl | rfl | rfl | rfl | rfl | rfl | rfl | rfl | rfl
    all_goals simp [Diverges]
  · rw [iface]
    cases u.natSection <;> split <;> simp [Diverges, NatSection.ifaceKey]
  · exact diverges_of_length rfl different

variable {kinds : Kinds String} {node : Cfg}

/-- Without a drop of the group node all that is apart stays. -/
theorem unshown_kept {live : Option NatRule}
    (own : live = some row ∨ live = none) (stays : ¬ dropsGroup live u)
    {probe : Path} (unshown : Unshown row u probe) :
    subtree probe (executeAll kinds (laid (ruleBlocks live u)) node) =
      subtree probe node := by
  refine Spares.subtree_eq (fun command member => ?_) node
  rcases edit_along own command member with ⟨leaf, shown, more, same⟩ | ⟨drops, _⟩
  · show Diverges command.path probe
    rw [← same]
    simpa using (unshown leaf shown).append more []
  · exact absurd drops stays

theorem group_dropped {type : String} (drops : dropsGroup (some row) u)
    (hidden : ["source", "group", type] ∉ shownLeaves row u)
    (conforms : Conforms kinds node) :
    subtree ["source", "group", type]
      (executeAll kinds (laid (ruleBlocks (some row) u)) node) = none := by
  have unshown := unshown_group hidden
  have address : ∀ more,
      Diverges (["source", "address"] ++ more) ["source", "group", type] := by
    intro more
    have apart : Diverges ["source", "address"] ["source", "group", type] :=
      unshown _ (by simp [shownLeaves])
    simpa using apart.append more []
  have put : Spares ["source", "group", type] (putGroup (some row) u) := by
    unfold putGroup
    split
    · rename_i reference wants
      obtain ⟨other, typed⟩ := groupType_isSome reference
      obtain ⟨rest, split⟩ := splitSpaces_cons typed
      refine .ite (fun _ => .single ?_) fun _ => .nil
      have apart := unshown _
        (mem_shownLeaves_group ⟨reference, .inr wants, typed⟩)
      show Diverges ("source" :: "group" :: splitSpaces reference) _
      rw [split]
      simpa using apart.append rest []
    · exact .nil
  have yields : Yields kinds ["source", "group", type]
      (subtree ["source", "group", type] node) (· = none)
      (sourceMatch (some row) u) := by
    unfold sourceMatch
    refine .append (· = none) (.append (· = none) (.append (fun _ => True)
      (fun _ _ _ => trivial) fun _ _ => ?_) fun _ gone => .ofSpares
        (Below.spares (putAddress_local _ _) address) gone)
      fun _ gone => .ofSpares put gone
    rw [dropGroup, if_pos drops]
    exact Yields.clearAbove _ (by simp) (List.prefix_append _ [type])
  have member : (⟨[["source", "address"], ["source", "group"]],
      sourceMatch (some row) u⟩ : Block String) ∈ ruleBlocks (some row) u := by
    simp [ruleBlocks]
  have above : ["source", "group"] <+: ["source", "group", type] :=
    List.prefix_append _ [type]
  exact yields.within_blocks (ruleBlocks_separate _ _) member (by simp) above
    conforms

/-- In place, what the form does not show stays exactly when the group node has
no more in it or stays. -/
theorem unshown_inPlace_iff (conforms : Conforms kinds node) :
    (∀ probe, Unshown row u probe →
      subtree probe (executeAll kinds (laid (ruleBlocks (some row) u)) node) =
        subtree probe node) ↔
      (dropsGroup (some row) u → ∀ type,
        ["source", "group", type] ∉ shownLeaves row u →
          subtree ["source", "group", type] node = none) := by
  constructor
  · intro kept drops type hidden
    rw [← kept _ (unshown_group hidden), group_dropped drops hidden conforms]
  · intro alone probe unshown
    by_cases drops : dropsGroup (some row) u
    · by_cases apart : Diverges ["source", "group"] probe
      · refine Spares.subtree_eq (fun command member => ?_) node
        rcases edit_along (.inl rfl) command member with
          ⟨leaf, shown, more, same⟩ | ⟨_, rfl⟩
        · show Diverges command.path probe
          rw [← same]
          simpa using (unshown leaf shown).append more []
        · exact apart
      · -- The path is below the group node, at a type the form does not show.
        obtain ⟨shownGroup, own⟩ := Option.ne_none_iff_exists'.mp drops.1
        obtain ⟨first, typed⟩ := groupType_isSome shownGroup
        have fromGroup := unshown _
          (mem_shownLeaves_group ⟨shownGroup, .inl own, typed⟩)
        have fromAddress := unshown ["source", "address"]
          (by simp [shownLeaves])
        obtain ⟨type, rest, rfl⟩ : ∃ type rest,
            probe = "source" :: "group" :: type :: rest := by
          rcases probe with _ | ⟨side, _ | ⟨key, _ | ⟨type, rest⟩⟩⟩
          · exact absurd (List.nil_prefix) fromAddress.2
          · have same : side = "source" := by
              by_contra different
              exact apart (by simp [Diverges, Ne.symm different, different])
            subst same
            exact absurd (List.prefix_append _ ["address"]) fromAddress.2
          · have same : [side, key] = ["source", "group"] := by
              by_contra different
              exact apart (diverges_of_length rfl (Ne.symm different))
            rw [same] at fromGroup
            exact absurd (List.prefix_append _ [first]) fromGroup.2
          · have same : [side, key] = ["source", "group"] := by
              by_contra different
              refine apart ?_
              have lengths : Diverges ["source", "group"] [side, key] :=
                diverges_of_length rfl (Ne.symm different)
              simpa using lengths.append [] (type :: rest)
            cases same
            exact ⟨type, rest, rfl⟩
        have hidden : ["source", "group", type] ∉ shownLeaves row u :=
          fun shown => (unshown _ shown).1 (List.prefix_append _ rest)
        have split : "source" :: "group" :: type :: rest =
            ["source", "group", type] ++ rest := rfl
        rw [split, subtree_append, subtree_append, alone drops type hidden,
          group_dropped drops hidden conforms]
    · exact unshown_kept (.inl rfl) drops unshown

end Leaves

/-! ## What the form submits -/

section Submitted

variable {kinds : Kinds String} {root : Cfg} {side : NatSection}
  {initial : Option NatRule} {builtins : List InterfaceAlias}
  {aliases : List FirewallAlias} {form : NatRuleForm} {u : NatRuleUpdate}
  {number : String → Option Nat}

/-- A source alias the form has to choose from. -/
def Offered (initial : Option NatRule) (builtins : List InterfaceAlias)
    (aliases : List FirewallAlias) (group : String) : Prop :=
  group = "" ∨
    (∃ b ∈ builtins, ∃ network ∈ b.networks, group = netPrefix ++ network) ∨
    (∃ a ∈ aliases, (a.type = .host ∨ a.type = .network) ∧
      group = a.type.node ++ " " ++ a.name) ∨
    initial.bind NatRule.sourceGroup = some group

/-- What the form is opened with: a listed rule or none, aliases with names and
networks that are not empty. -/
structure Opened (root : Cfg) (side : NatSection) (initial : Option NatRule)
    (builtins : List InterfaceAlias) (aliases : List FirewallAlias) :
    Prop where
  listed : ∀ row, initial = some row → row ∈ (fetchNat44 root).rules side
  networks : ∀ b ∈ builtins, "" ∉ b.networks
  names : ∀ a ∈ aliases, Word a.name

/-- A group reference that is listed is a type and a name. -/
theorem words_of_listed (schema : Schema kinds)
    (rendered : Rendered kinds root side)
    {row : NatRule} (listed : row ∈ parseRules (natConfig root) side)
    {group : String} (shown : row.sourceGroup = some group) :
    ∃ type name, Word type ∧ Word name ∧ group = type ++ " " ++ name := by
  obtain ⟨body, found, same⟩ := (mem_parseRules schema rendered row).mp listed
  have here := ruleNode_of_subtree schema rendered found
  have reads : groupAt (subtree ["source", "group"] body) = some group := by
    rw [← groupRef_eq, ← shown, same]
    rfl
  rcases here.groupEntries with none | ⟨entries, inside, words⟩
  · rw [none] at reads
    cases reads
  · rw [inside] at reads
    cases entries with
    | nil => cases reads
    | cons entry rest =>
        obtain ⟨name, value, type, word⟩ := words entry (by simp)
        obtain ⟨key, leaf⟩ := entry
        have value : leaf = .value name := value
        rw [value, groupAt_first type] at reads
        cases reads
        exact ⟨key, name, type, word, rfl⟩

theorem sound_of_update (schema : Schema kinds)
    (rendered : Rendered kinds root side)
    (opened : Opened root side initial builtins aliases)
    (offered : Offered initial builtins aliases form.sourceGroup)
    (valued : form.masquerade = true ∨
      Firewall.trim form.translationAddress ≠ "") (num : Nat) :
    (form.update side initial num).Sound where
  translation := by
    simp only [NatRuleForm.update, Option.bind_some]
    split
    · decide
    · rename_i literal
      have proper := valued.resolve_left literal
      rw [trimmed, Firewall.trim_trim, if_neg proper]
      simp
  group := by
    simp only [NatRuleForm.update]
    split
    · rename_i chosen
      obtain ⟨_, literal, proper⟩ := chosen
      refine .inr ?_
      rcases offered with empty | ⟨b, member, network, inside, same⟩ |
        ⟨a, member, hostOrNetwork, same⟩ | own
      · exact absurd empty proper
      · rw [same, netAlias_prefix] at literal
        rcases literal with absent | blank
        · cases absent
        · cases blank
          exact absurd inside (opened.networks b member)
      · refine ⟨a.type.node, a.name, ?_, opened.names a member, by rw [same]⟩
        rcases hostOrNetwork with host | network
        · rw [host]
          decide
        · rw [network]
          decide
      · obtain ⟨row, edited, shown⟩ := Option.bind_eq_some_iff.mp own
        obtain ⟨type, name, first, last, same⟩ := words_of_listed schema rendered
          ((rules_sublist root side).mem (opened.listed row edited)) shown
        exact ⟨type, name, first, last, by rw [same]⟩
    · exact .inl rfl

/-- The number a rule is saved under is its own, or no rule has it. -/
theorem targets_of_submit (schema : Schema kinds)
    (rendered : Rendered kinds root side)
    (opened : Opened root side initial builtins aliases)
    (submits : submit number side initial ((fetchNat44 root).rules side)
      ((fetchNat44 root).staticNat.map StaticNatMapping.rule) form = .ok u) :
    Targets root ((fetchNat44 root).rules side) u := by
  obtain ⟨num, _, _, free, untaken, _, _, rfl⟩ := submit_ok_iff.mp submits
  have unused : (∀ row, initial = some row → row.rule ≠ num) →
      subtree (ruleBase side num) root = none := by
    intro others
    refine subtree_of_free schema rendered fun row listed same => ?_
    rcases plain_or_paired listed with plain | paired
    · have own := free row plain same
      cases edited : initial with
      | none => simp [edited] at own
      | some first =>
          simp only [edited, Option.any_some, decide_eq_true_eq] at own
          exact others first edited (own.trans same)
    · exact untaken (same ▸ paired)
  have moved : (form.update side initial num).moved =
      initial.any (·.rule ≠ num) := by
    cases initial <;> rfl
  unfold Targets liveRule
  rw [moved]
  show (if initial.any (·.rule ≠ num) = true then none
    else ((fetchNat44 root).rules side).find? (·.rule = num)) =
      (subtree (ruleBase side num) root).map (parseRule side (toString num))
  cases initial with
  | none =>
      rw [unused (by simp), if_neg (by simp), Option.map_none,
        List.find?_eq_none]
      intro row listed same
      have own := free row listed (by simpa using same)
      simp at own
  | some row =>
      have listed := opened.listed row rfl
      by_cases same : row.rule = num
      · obtain ⟨body, found, reads⟩ := (mem_parseRules schema rendered
          row).mp ((rules_sublist root side).mem listed)
        rw [if_neg (by simpa using same), ← same, find?_of_distinct
          (nodup_rule_rules schema rendered) listed, found,
          Option.map_some, ← reads]
      · rw [unused (by simpa using same), if_pos (by simpa using same),
          Option.map_none]

end Submitted

/-! ## Whole edits -/

/-- An edit of a rule, or of none to make one: the section lists the rule as
the update says at its number, none at the old one, and every other rule; what
is apart is as before; and what the form does not show of the rule is there. -/
structure RuleEdited (root after : Cfg) (initial : Option NatRule)
    (u : NatRuleUpdate) : Prop where
  rules : ∃ shown : NatRule, (parseRules (natConfig after) u.natSection).Perm
    (shown.updated u :: (parseRules (natConfig root) u.natSection).filter
      (·.rule ∉ u.numbers))
  other : ∀ side, u.natSection ≠ side →
    parseRules (natConfig after) side = parseRules (natConfig root) side
  apart : ∀ probe, (∀ number ∈ u.numbers,
    Diverges (ruleBase u.natSection number) probe) →
      subtree probe after = subtree probe root
  criteria : ∀ row, initial = some row → ∀ probe, Unshown row u probe →
    subtree (ruleBase u.natSection u.rule ++ probe) after =
      subtree (ruleBase u.natSection row.rule ++ probe) root

/-- The edited rule loses nothing: in place, its group node has no more in it
when it is dropped; moved, the rule has nothing the form does not show. -/
def LosesNothing (root : Cfg) (initial : Option NatRule) (u : NatRuleUpdate) :
    Prop :=
  ∀ row, initial = some row →
    if row.rule = u.rule then
      dropsGroup (some row) u → ∀ type,
        ["source", "group", type] ∉ shownLeaves row u →
          subtree (ruleBase u.natSection row.rule ++ ["source", "group", type])
            root = none
    else ∀ probe, Unshown row u probe →
      subtree (ruleBase u.natSection row.rule ++ probe) root = none

section Whole

variable {kinds : Kinds String} {root : Cfg} {side : NatSection}
  {initial : Option NatRule} {builtins : List InterfaceAlias}
  {aliases : List FirewallAlias} {form : NatRuleForm} {u : NatRuleUpdate}
  {number : String → Option Nat}

theorem subtree_edit_append (schema : Schema kinds)
    (rendered : Rendered kinds root u.natSection) {existing : List NatRule}
    (targets : Targets root existing u) (probe : Path) :
    subtree (ruleBase u.natSection u.rule ++ probe)
        (executeAll kinds (diffNatRule existing u) root) =
      subtree probe (executeAll (kinds.below (ruleBase u.natSection u.rule))
        (laid (ruleBlocks (liveRule existing u) u))
        (slice (ruleBase u.natSection u.rule) root)) := by
  rw [subtree_append, subtree_edit schema rendered targets, Option.bind_some]

/-- An edit the form submits does all it should exactly when the rule has
nothing to lose by it. -/
theorem ruleEdited_iff (schema : Schema kinds)
    (rendered : Rendered kinds root side)
    (opened : Opened root side initial builtins aliases)
    (offered : Offered initial builtins aliases form.sourceGroup)
    (submits : submit number side initial ((fetchNat44 root).rules side)
      ((fetchNat44 root).staticNat.map StaticNatMapping.rule) form = .ok u) :
    RuleEdited root
        (executeAll kinds (diffNatRule ((fetchNat44 root).rules side) u) root)
        initial u ↔
      LosesNothing root initial u := by
  have targets := targets_of_submit schema rendered opened submits
  obtain ⟨num, _, _, _, _, valued, _, rfl⟩ := submit_ok_iff.mp submits
  have sound := sound_of_update schema rendered opened offered valued num
  have original : (form.update side initial num).originalRule =
      initial.map NatRule.rule := rfl
  have naturally : (form.update side initial num).natSection = side := rfl
  generalize form.update side initial num = u at *
  subst naturally
  have criteria : (∀ row, initial = some row → ∀ probe, Unshown row u probe →
      subtree (ruleBase u.natSection u.rule ++ probe)
          (executeAll kinds
            (diffNatRule ((fetchNat44 root).rules u.natSection) u) root) =
        subtree (ruleBase u.natSection row.rule ++ probe) root) ↔
      LosesNothing root initial u := by
    refine forall₂_congr fun row edited => ?_
    simp only [subtree_edit_append schema rendered targets]
    have listed := (rules_sublist root u.natSection).mem (opened.listed row edited)
    by_cases same : row.rule = u.rule
    · rw [if_pos same]
      obtain ⟨body, found, reads⟩ :=
        (mem_parseRules schema rendered row).mp listed
      have live : liveRule ((fetchNat44 root).rules u.natSection) u = some row := by
        rw [targets, ← same, found, Option.map_some, ← reads]
      have here := ruleNode_of_subtree schema rendered found
      rw [same] at here found
      rw [live, same, slice_of_found found]
      simp only [subtree_append, found, Option.bind_some]
      exact unshown_inPlace_iff here.conforms
    · rw [if_neg same]
      have moves : u.moved = true := by
        rw [NatRuleUpdate.moved, original, edited]
        simpa using same
      have live : liveRule ((fetchNat44 root).rules u.natSection) u = none :=
        if_pos moves
      have absent : subtree (ruleBase u.natSection u.rule) root = none := by
        rw [Targets, live] at targets
        exact Option.map_eq_none_iff.mp targets.symm
      rw [live, slice, absent, Option.getD_none]
      refine forall₂_congr fun probe unshown => ?_
      have built : subtree probe
          (executeAll (kinds.below (ruleBase u.natSection u.rule))
            (laid (ruleBlocks none u)) (.node [])) = none := by
        rw [unshown_kept (.inr rfl) (by simp [dropsGroup]) unshown]
        refine subtree_of_leaf rfl ?_
        rintro rfl
        exact (unshown ["description"] (by simp [shownLeaves])).2
          List.nil_prefix
      rw [built, eq_comm]
  refine ⟨fun whole => criteria.mp whole.criteria, fun kept => ?_⟩
  exact
    { rules := ⟨_, parseRules_edit schema rendered targets sound⟩
      other := fun _ => parseRules_edit_other schema rendered.conforms
      apart := fun probe elsewhere => subtree_edit_of_diverges
        (elsewhere _ List.mem_cons_self) fun other own _ =>
          elsewhere other (by simp [NatRuleUpdate.numbers, own])
      criteria := criteria.mpr kept }

end Whole

/-! ## A rule that matches by interface group -/

/-- The form opened with rule 20 of the two, with some fields changed. -/
def editedForm (rule description : String) : NatRuleForm :=
  { initialForm .source (some givenInterface) ["eth0"] [] with
    rule := rule
    description := description }

theorem opened_givenInterface :
    Opened twoRules .source (some givenInterface) [] [] where
  listed row same := by
    cases same
    decide +kernel
  networks := by simp
  names := by simp

theorem description_edited :
    RuleEdited twoRules
      (executeAll natKinds (diffNatRule ((fetchNat44 twoRules).rules .source)
        ((editedForm "20" "guests").update .source (some givenInterface) 20))
        twoRules)
      (some givenInterface)
      ((editedForm "20" "guests").update .source (some givenInterface) 20) := by
  have offered : Offered (some givenInterface) [] []
      (editedForm "20" "guests").sourceGroup :=
    .inr (.inr (.inr (by decide +kernel)))
  have submits : submit decimals.number .source (some givenInterface)
      ((fetchNat44 twoRules).rules .source)
      ((fetchNat44 twoRules).staticNat.map StaticNatMapping.rule)
      (editedForm "20" "guests") = .ok _ := rfl
  refine (ruleEdited_iff natSchema (rendered_of_check rfl (by decide +kernel) _)
    opened_givenInterface offered submits).mpr fun row same => ?_
  cases same
  rw [if_pos (by decide +kernel)]
  intro drops
  exact absurd drops (by decide +kernel)

/-- Renumbered, it matches an interface of the group's name instead. -/
theorem interfaceGroup_lost :
    submit decimals.number .source (some givenInterface)
        ((fetchNat44 twoRules).rules .source)
        ((fetchNat44 twoRules).staticNat.map StaticNatMapping.rule)
        (editedForm "30" "") =
      .ok ((editedForm "30" "").update .source (some givenInterface) 30) ∧
    ¬ RuleEdited twoRules
      (executeAll natKinds (diffNatRule ((fetchNat44 twoRules).rules .source)
        ((editedForm "30" "").update .source (some givenInterface) 30))
        twoRules)
      (some givenInterface)
      ((editedForm "30" "").update .source (some givenInterface) 30) := by
  refine ⟨rfl, fun whole => ?_⟩
  have kept := whole.criteria givenInterface rfl ["outbound-interface", "group"]
    (by decide +kernel)
  revert kept
  decide +kernel

end QuartzFire.Nat44
