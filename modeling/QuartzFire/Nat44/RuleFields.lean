import QuartzFire.Nat44.Edit

/-!
# What a rule reads as after an edit

The blocks of an edit act on the node of the rule alone.  The node then reads
as the update says, and what the update does not mention reads as before.
-/

namespace QuartzFire.Nat44

open ConfigTree Editing
open Firewall (Cfg Path VyosCommand trimmed childStr has)

/-- The row that an update makes of a row. -/
def NatRule.updated (shown : NatRule) (u : NatRuleUpdate) : NatRule :=
  { rule := u.rule
    description := u.description.bind trimmed
    interface := u.interface.bind trimmed
    interfaceGroup := shown.interfaceGroup &&
      u.interface.bind trimmed = shown.interface
    source := u.sourceAddress.bind trimmed
    sourceGroup := u.sourceGroup.bind trimmed
    sourcePort := u.sourcePort.bind trimmed
    destination := u.destinationAddress.bind trimmed
    destinationGroup := shown.destinationGroup
    destinationPort := u.destinationPort.bind trimmed
    translation := u.translationAddress.bind trimmed
    translationPort := u.translationPort.bind trimmed
    protocol := u.protocol.bind trimmed
    enabled := u.enabled }

/-- What the form and the mappings see to: a translation, and a source group
that is a type and a name. -/
structure NatRuleUpdate.Sound (u : NatRuleUpdate) : Prop where
  translation : u.translationAddress.bind trimmed ≠ none
  group : u.sourceGroup = none ∨ ∃ type name, Word type ∧ Word name ∧
    u.sourceGroup = some (type ++ " " ++ name)

/-- The node of a rule: it conforms, and groups have names. -/
structure RuleNode (kinds : Kinds String) (side : NatSection) (node : Cfg) :
    Prop where
  conforms : Conforms kinds node
  shape : Shaped kinds (ruleShape side)
  groups : ∀ type, kinds ["source", "group", type] = .single
  words : ∀ type leaf, subtree ["source", "group", type] node = some leaf →
    ∃ name, leaf = .value name ∧ Word type ∧ Word name

/-! ## Group references -/

section Groups

theorem trimmed_words {type name : String} (first : Word type)
    (last : Word name) :
    trimmed (type ++ " " ++ name) = some (type ++ " " ++ name) := by
  have starts : ∀ char ∈ (type ++ " " ++ name).toList.head?,
      Firewall.isSpace char = false := by
    intro char head
    refine first.2 char (List.mem_of_mem_head? ?_)
    have proper : type.toList ≠ [] := by simpa using first.1
    rwa [String.toList_append, String.toList_append, List.append_assoc,
      List.head?_append_of_ne_nil _ proper] at head
  have ends : ∀ char ∈ (type ++ " " ++ name).toList.getLast?,
      Firewall.isSpace char = false := by
    intro char tail
    refine last.2 char (List.mem_of_mem_getLast? ?_)
    have proper : name.toList ≠ [] := by simpa using last.1
    rwa [String.toList_append, List.getLast?_append_of_ne_nil _ proper] at tail
  have same := Firewall.trim_of_ends starts ends
  have proper : type ++ " " ++ name ≠ "" := by
    intro empty
    have lengths := congrArg String.length empty
    simp [String.length_append] at lengths
  rw [trimmed, same, if_neg proper]

theorem splitSpaces_words {type name : String} (first : Word type)
    (last : Word name) : splitSpaces (type ++ " " ++ name) = [type, name] := by
  have spaceless : ∀ text, Word text → ' ' ∉ text.toList := by
    intro text word member
    have space := word.2 ' ' member
    revert space
    decide
  have same : (type ++ " " ++ name).toList =
      type.toList ++ ' ' :: name.toList := by
    simp [String.toList_append]
  rw [splitSpaces, same, List.splitOn_append_cons_self_of_not_mem
    (spaceless type first), List.splitOn_eq_singleton (spaceless name last)]
  simp

/-- The reference a group node shows, which is its first entry. -/
def groupAt (leaf : Option Cfg) : Option String :=
  match leaf.bind fun g => (objectEntries g).head? with
  | some (type, .value name) =>
      if type ≠ "" then some (type ++ " " ++ name) else none
  | _ => none

theorem groupRef_eq (v : Cfg) (side : String) :
    groupRef v side = groupAt (subtree [side, "group"] v) := by
  rw [groupRef, groupAt, ← subtree_childNode, subtree_singleton, childCfg]
  cases (childNode v side).child "group" with
  | none => rfl
  | some leaf => cases leaf <;> rfl

variable {kinds : Kinds String} {side : NatSection} {node : Cfg}

/-- A group node is a list of types with a name each. -/
theorem RuleNode.groupEntries (here : RuleNode kinds side node) :
    subtree ["source", "group"] node = none ∨ ∃ entries,
      subtree ["source", "group"] node = some (.node entries) ∧
        ∀ entry ∈ entries, ∃ name,
          entry.2 = .value name ∧ Word entry.1 ∧ Word name := by
  have field : FieldAt kinds ["source", "group"] .node :=
    here.shape (["source", "group"], .node) (by simp [ruleShape])
  cases found : subtree ["source", "group"] node with
  | none => exact .inl rfl
  | some group =>
      refine .inr ⟨group.entries, ?_, fun entry member => ?_⟩
      · rw [← here.conforms.node_of_nodePath field.nodePath found]
      · have below := here.conforms.slice field.nodePath
        rw [slice_of_found found] at below
        have inside := below.mem_entries.mp (show (entry.1, entry.2) ∈ _ from
          member)
        obtain ⟨name, same, type, word⟩ := here.words entry.1 entry.2 (by
          rw [show ["source", "group", entry.1] =
            ["source", "group"] ++ [entry.1] from rfl, subtree_append, found,
            Option.bind_some, subtree_singleton, inside])
        exact ⟨name, same, type, word⟩

theorem groupAt_first {type name : String} (word : Word type)
    (rest : List (String × Cfg)) :
    groupAt (some (.node ((type, .value name) :: rest))) =
      some (type ++ " " ++ name) :=
  if_pos word.1

/-- A reference that is put in place of the first, or into an empty node, is
the one that shows. -/
theorem groupAt_put {type name : String} (word : Word type)
    {entries : List (String × Cfg)}
    (first : ∀ entry ∈ entries.head?, entry.1 = type)
    (values : ∀ entry ∈ entries, ∃ name, entry.2 = .value name) :
    groupAt (some (put (.node entries) type
      (oneValue (child (.node entries) type) name))) =
        some (type ++ " " ++ name) := by
  cases entries with
  | nil => exact groupAt_first word []
  | cons entry rest =>
      obtain ⟨key, leaf⟩ := entry
      have same : key = type := first (key, leaf) rfl
      obtain ⟨old, rfl⟩ : ∃ old, leaf = .value old := values (key, leaf) (by simp)
      subst same
      have written : put (.node ((key, .value old) :: rest)) key
          (oneValue (child (.node ((key, .value old) :: rest)) key) name) =
          .node ((key, .value name) :: rest) := by
        simp [put, putEntry, child, findEntry, entries, oneValue]
      rw [written]
      exact groupAt_first word rest

end Groups

/-! ## The source match -/

section Source

variable {kinds : Kinds String} {side : NatSection} {node : Cfg}
  {live : Option NatRule} {u : NatRuleUpdate}

theorem address_yields
    (field : FieldAt kinds ["source", "address"] .single) {start : Option Cfg}
    (shown : live.bind NatRule.source = textAt start) :
    Yields kinds ["source", "address"] start
      (fun after => textAt after = u.sourceAddress.bind trimmed)
      (sourceMatch live u) := by
  have elsewhere : ∀ more,
      Diverges (["source", "group"] ++ more) ["source", "address"] := by
    intro more
    have apart : Diverges ["source", "group"] ["source", "address"] := by decide
    simpa using apart.append more []
  have groups : Spares ["source", "address"] (dropGroup live u) :=
    Below.spares (dropGroup_local live u) elsewhere
  have after : Spares ["source", "address"] (putGroup live u) :=
    Below.spares (putGroup_local live u) elsewhere
  unfold sourceMatch
  cases wants : u.sourceAddress.bind trimmed with
  | none =>
      have sets : putAddress live u = [] := by simp [putAddress, wants]
      rw [sets, List.append_nil]
      refine .append (fun after => textAt after = none)
        (.append (fun after => textAt after = none) ?_
          fun _ gone => .ofSpares groups gone)
        fun _ gone => .ofSpares after gone
      unfold dropAddress
      split
      · exact (Yields.clear (by simp)).mono (by rintro _ rfl; rfl)
      · rename_i kept
        exact .nil (by simpa [wants, shown] using kept)
  | some address =>
      have drops : dropAddress live u = [] := by simp [dropAddress, wants]
      rw [drops, List.nil_append]
      refine .append (fun after => textAt after = some address)
        (.append _ (Yields.kept groups) ?_) fun _ held => .ofSpares after held
      rintro _ rfl
      simp only [putAddress, wants]
      split
      · exact write_yields field (trimmed_of_wants wants)
      · rename_i held
        exact .nil (by rw [← shown]; simpa using Eq.symm (not_not.mp held))

/-- What the source group is wanted to be, as the code reads it back. -/
theorem NatRuleUpdate.Sound.wants (sound : u.Sound) :
    u.sourceGroup.bind trimmed = none ∨ ∃ type name, Word type ∧ Word name ∧
      u.sourceGroup.bind trimmed = some (type ++ " " ++ name) := by
  rcases sound.group with none | ⟨type, name, first, last, shown⟩
  · exact .inl (by rw [none]; rfl)
  · refine .inr ⟨type, name, first, last, ?_⟩
    rw [shown, Option.bind_some, trimmed_words first last]

theorem groupType_words {type name : String} (first : Word type)
    (last : Word name) : groupType (type ++ " " ++ name) = some type := by
  rw [groupType, splitSpaces_words first last]
  rfl

/-- Setting a reference where there is none, or one of its type. -/
theorem putGroup_yields (here : RuleNode kinds side node) {type name : String}
    (first : Word type)
    {start : Option Cfg} (entries : List (String × Cfg))
    (holds : start.getD (.node []) = .node entries)
    (types : ∀ entry ∈ entries.head?, entry.1 = type)
    (values : ∀ entry ∈ entries, ∃ name, entry.2 = .value name) :
    Yields kinds ["source", "group"] start
      (fun after => groupAt after = some (type ++ " " ++ name))
      [.set (["source", "group"] ++ [type, name])] := by
  have field : FieldAt kinds ["source", "group"] .node :=
    here.shape (["source", "group"], .node) (by simp [ruleShape])
  have isSingle : kinds.below ["source", "group"] [type] = .single :=
    here.groups type
  intro tree _ found
  rw [executeAll, List.foldl_cons, List.foldl_nil, execute,
    subtree_set_append field.nodePath, found, holds, set_single isSingle]
  exact groupAt_put first types values

theorem group_yields (here : RuleNode kinds side node)
    (shown : live.bind NatRule.sourceGroup =
      groupAt (subtree ["source", "group"] node)) (sound : u.Sound) :
    Yields kinds ["source", "group"] (subtree ["source", "group"] node)
      (fun after => groupAt after = u.sourceGroup.bind trimmed)
      (sourceMatch live u) := by
  have elsewhere : ∀ more,
      Diverges (["source", "address"] ++ more) ["source", "group"] := by
    intro more
    have apart : Diverges ["source", "address"] ["source", "group"] := by decide
    simpa using apart.append more []
  have before : Spares ["source", "group"] (dropAddress live u) :=
    Below.spares (dropAddress_local live u) elsewhere
  have between : Spares ["source", "group"] (putAddress live u) :=
    Below.spares (putAddress_local live u) elsewhere
  unfold sourceMatch
  have dropped : Yields kinds ["source", "group"]
      (subtree ["source", "group"] node)
      (· = if dropsGroup live u then none else subtree ["source", "group"] node)
      (dropAddress live u ++ dropGroup live u) := by
    refine .append _ (Yields.kept before) ?_
    rintro _ rfl
    unfold dropGroup
    split
    · exact Yields.clear (by simp)
    · exact .nil rfl
  refine .append _ (dropped.append _ fun _ held => .ofSpares between held) ?_
  rintro _ rfl
  rcases sound.wants with none | ⟨type, name, first, last, wants⟩
  · have puts : putGroup live u = [] := by simp [putGroup, none]
    rw [puts, none]
    refine .nil ?_
    by_cases drops : dropsGroup live u
    · rw [if_pos drops]
      rfl
    · rw [if_neg drops, ← shown]
      simpa [dropsGroup, none] using drops
  · rw [wants]
    by_cases same : live.bind NatRule.sourceGroup = some (type ++ " " ++ name)
    · have puts : putGroup live u = [] := by simp [putGroup, wants, same]
      have stays : ¬ dropsGroup live u := by simp [dropsGroup, wants, same]
      rw [puts, if_neg stays]
      exact .nil (by rw [← shown, same])
    · have puts : putGroup live u =
          [.set (["source", "group"] ++ [type, name])] := by
        simp only [putGroup, wants]
        rw [if_pos (Ne.symm same), splitSpaces_words first last]
        rfl
      rw [puts]
      by_cases drops : dropsGroup live u
      · rw [if_pos drops]
        exact putGroup_yields here first [] rfl (by simp) (by simp)
      · rw [if_neg drops]
        rcases here.groupEntries with none | ⟨entries, found, words⟩
        · exact putGroup_yields here first [] (by rw [none]; rfl) (by simp)
            (by simp)
        · refine putGroup_yields here first entries (by rw [found]; rfl) ?_ ?_
          · -- The reference that shows has the wanted type, or it would go.
            intro entry head
            obtain ⟨old, value, oldType, oldName⟩ := words entry
              (List.mem_of_mem_head? head)
            obtain ⟨rest, rfl⟩ : ∃ rest, entries = entry :: rest := by
              cases entries with
              | nil => cases head
              | cons front rest =>
                  cases head
                  exact ⟨rest, rfl⟩
            have reads : live.bind NatRule.sourceGroup =
                some (entry.1 ++ " " ++ old) := by
              rw [shown, found, ← groupAt_first oldType rest, ← value]
            rw [dropsGroup, reads, wants] at drops
            simp only [Option.bind_some, groupType_words first last,
              groupType_words oldType oldName] at drops
            simpa [eq_comm] using drops
          · intro entry member
            obtain ⟨old, value, _⟩ := words entry member
            exact ⟨old, value⟩

end Source

/-! ## The interface -/

section Interface

variable {kinds : Kinds String} {start : Option Cfg}
  {live : Option NatRule} {u : NatRuleUpdate}

theorem interfaceMatch_same
    (same : u.interface.bind trimmed = live.bind NatRule.interface) :
    interfaceMatch live u = [] :=
  interfaceMatch_eq_nil_iff.mpr same

/-- A changed interface is the name alone. -/
theorem interfaceName_yields
    (field : FieldAt kinds [u.natSection.ifaceKey, "name"] .single)
    (differs : u.interface.bind trimmed ≠ live.bind NatRule.interface) :
    Yields kinds [u.natSection.ifaceKey, "name"] start
      (fun after => textAt after = u.interface.bind trimmed)
      (interfaceMatch live u) := by
  unfold interfaceMatch
  dsimp only
  rw [if_neg differs]
  cases wants : u.interface.bind trimmed with
  | none =>
      rw [wants] at differs
      rw [if_pos differs.symm, List.append_nil]
      refine (Yields.clearAbove [u.natSection.ifaceKey] (by simp)
        (List.prefix_append _ ["name"])).mono ?_
      rintro _ rfl
      rfl
  | some iface =>
      refine .append (fun _ => True) (fun _ _ _ => trivial) ?_
      intro _ _
      exact write_yields field (trimmed_of_wants wants)

theorem interfaceGroup_yields
    (differs : u.interface.bind trimmed ≠ live.bind NatRule.interface)
    (cleared : u.interface.bind trimmed = none) :
    Yields kinds [u.natSection.ifaceKey, "group"] start
      (fun after => after = none) (interfaceMatch live u) := by
  unfold interfaceMatch
  dsimp only
  rw [if_neg differs, cleared]
  rw [cleared] at differs
  rw [if_pos differs.symm, List.append_nil]
  exact Yields.clearAbove _ (by simp) (List.prefix_append _ ["group"])

end Interface

/-! ## The whole row -/

section Row

variable {kinds : Kinds String} {side : NatSection} {node : Cfg}
  {live : Option NatRule} {u : NatRuleUpdate} {shown : NatRule}

/-- What an edit compares with is what the node shows. -/
structure Mirrors (live : Option NatRule) (shown : NatRule) : Prop where
  description : live.bind NatRule.description = shown.description
  interface : live.bind NatRule.interface = shown.interface
  source : live.bind NatRule.source = shown.source
  sourceGroup : live.bind NatRule.sourceGroup = shown.sourceGroup
  sourcePort : live.bind NatRule.sourcePort = shown.sourcePort
  destination : live.bind NatRule.destination = shown.destination
  destinationPort : live.bind NatRule.destinationPort = shown.destinationPort
  translation : live.bind NatRule.translation = shown.translation
  translationPort : live.bind NatRule.translationPort = shown.translationPort
  protocol : live.bind NatRule.protocol = shown.protocol
  enabled : (live.map NatRule.enabled).getD true = shown.enabled

theorem mirrors_some (shown : NatRule) : Mirrors (some shown) shown := by
  constructor <;> rfl

/-- A rule that is not there is compared with as one that is empty. -/
theorem mirrors_none (side : NatSection) (number : String) :
    Mirrors none (parseRule side number (.node [])) := by
  constructor <;> rfl

/-- What a text field of the row becomes. -/
theorem textAt_edited (live : Option NatRule)
    (here : RuleNode kinds u.natSection node) (path : Path)
    (kept desired : Option String)
    (member : (⟨[path], leaf path kept desired⟩ : Block String) ∈
      ruleBlocks live u)
    (field : (path, Kind.single) ∈ ruleShape u.natSection)
    (mirrors : kept = textAt (subtree path node)) :
    textAt (subtree path (executeAll kinds (laid (ruleBlocks live u)) node)) =
      desired.bind trimmed :=
  (leaf_yields (here.shape _ field) mirrors).at_leaf path
    (ruleBlocks_separate live u) member (List.prefix_refl path) here.conforms

/-- What diverges from all that is written is as it was. -/
theorem subtree_edited {probe : Path}
    (elsewhere : ∀ leaf ∈ written (ruleBlocks live u), Diverges leaf probe) :
    subtree probe (executeAll kinds (laid (ruleBlocks live u)) node) =
      subtree probe node :=
  (spares_laid (ruleBlocks_separate live u).each elsewhere).subtree_eq node

theorem translationOf_edited (here : RuleNode kinds u.natSection node)
    (mirrors : live.bind NatRule.translation = translationOf node)
    (sound : u.Sound) :
    translationOf (executeAll kinds (laid (ruleBlocks live u)) node) =
      u.translationAddress.bind trimmed := by
  have legacy : subtree ["translation", "masquerade"]
      (executeAll kinds (laid (ruleBlocks live u)) node) =
        subtree ["translation", "masquerade"] node := by
    refine subtree_edited ?_
    simp only [written, ruleBlocks, List.flatMap_cons, List.flatMap_nil]
    cases u.natSection <;> decide
  have field := here.shape (["translation", "address"], .single)
    (by simp [ruleShape])
  have address : Yields kinds ["translation", "address"]
      (subtree ["translation", "address"] node)
      (fun after => u.translationAddress.bind trimmed =
          live.bind NatRule.translation ∧
            after = subtree ["translation", "address"] node ∨
        textAt after = u.translationAddress.bind trimmed)
      (leaf ["translation", "address"] (live.bind NatRule.translation)
        u.translationAddress) := by
    obtain ⟨text, wants⟩ := Option.ne_none_iff_exists'.mp sound.translation
    by_cases same : u.translationAddress.bind trimmed =
        live.bind NatRule.translation
    · rw [leaf_same same]
      exact .nil (.inl ⟨same, rfl⟩)
    · rw [leaf_set wants fun equal => same (wants.trans equal.symm), wants]
      exact (write_yields field (trimmed_of_wants wants)).mono fun _ => .inr
  have after := address.at_leaf ["translation", "address"]
    (ruleBlocks_separate live u) (by simp [ruleBlocks]) (List.prefix_refl _)
    here.conforms
  rw [translationOf_eq, legacy]
  rcases after with ⟨same, kept⟩ | put
  · rw [kept, ← translationOf_eq, ← mirrors, same]
  · rw [put]
    obtain ⟨text, wants⟩ := Option.ne_none_iff_exists'.mp sound.translation
    rw [wants]
    rfl

theorem ifaceOf_edited (here : RuleNode kinds u.natSection node)
    (mirrors : live.bind NatRule.interface =
      (ifaceOf node u.natSection.ifaceKey).1) :
    ifaceOf (executeAll kinds (laid (ruleBlocks live u)) node)
        u.natSection.ifaceKey =
      (u.interface.bind trimmed,
        (ifaceOf node u.natSection.ifaceKey).2 &&
          u.interface.bind trimmed =
            (ifaceOf node u.natSection.ifaceKey).1) := by
  have isNode : kinds [u.natSection.ifaceKey] = .node :=
    (here.shape ([u.natSection.ifaceKey], .node) (by simp [ruleShape])).kind
  have separate := ruleBlocks_separate live u
  have member : (⟨[[u.natSection.ifaceKey]], interfaceMatch live u⟩ :
      Block String) ∈ ruleBlocks live u := by
    simp [ruleBlocks]
  rw [← mirrors]
  by_cases same : u.interface.bind trimmed = live.bind NatRule.interface
  · have kept : subtree [u.natSection.ifaceKey]
        (executeAll kinds (laid (ruleBlocks live u)) node) =
          subtree [u.natSection.ifaceKey] node := by
      have yields : Yields kinds [u.natSection.ifaceKey]
          (subtree [u.natSection.ifaceKey] node)
          (· = subtree [u.natSection.ifaceKey] node)
          (interfaceMatch live u) := by
        rw [interfaceMatch_same same]
        exact .nil rfl
      exact yields.at_leaf _ separate member (List.prefix_refl _)
        here.conforms
    rw [subtree_singleton, subtree_singleton] at kept
    rw [ifaceOf, kept, ← ifaceOf, same, mirrors]
    simp
  · have field := here.shape ([u.natSection.ifaceKey, "name"], .single)
      (by simp [ruleShape])
    have name := (interfaceName_yields field same).at_leaf _ separate member
      (List.prefix_append _ ["name"]) here.conforms
    rw [ifaceOf_eq here.conforms.executeAll isNode, name, decide_eq_false same,
      Bool.and_false]
    cases wants : u.interface.bind trimmed with
    | some iface => rfl
    | none =>
        have cleared : Yields kinds [u.natSection.ifaceKey, "group"]
            (subtree [u.natSection.ifaceKey, "group"] node) _ _ :=
          interfaceGroup_yields same wants
        rw [cleared.at_leaf _ separate member (List.prefix_append _ ["group"])
          here.conforms]
        rfl

theorem enabled_edited (here : RuleNode kinds u.natSection node)
    (mirrors : (live.map NatRule.enabled).getD true =
      !has node "disable") :
    (!has (executeAll kinds (laid (ruleBlocks live u)) node) "disable") =
      u.enabled := by
  have field := here.shape (["disable"], .valueless) (by simp [ruleShape])
  have yields : Yields kinds ["disable"] (subtree ["disable"] node) _
      (flag ["disable"] (!(live.map NatRule.enabled).getD true) !u.enabled) :=
    flag_yields (.inl field) (by rw [mirrors, Bool.not_not, has_eq])
  have after := yields.at_leaf ["disable"] (ruleBlocks_separate live u)
    (by simp [ruleBlocks]) (List.prefix_refl _) here.conforms
  rw [has_eq, after, Bool.not_not]

/-- The edited node reads as the update says, and as before where the update
says nothing. -/
theorem parseRule_edited (here : RuleNode kinds u.natSection node)
    {number : String}
    (mirrors : Mirrors live (parseRule u.natSection number node))
    (sound : u.Sound) :
    parseRule u.natSection (toString u.rule)
        (executeAll kinds (laid (ruleBlocks live u)) node) =
      (parseRule u.natSection number node).updated u := by
  have separate := ruleBlocks_separate live u
  have match_ : (⟨[["source", "address"], ["source", "group"]],
      sourceMatch live u⟩ : Block String) ∈ ruleBlocks live u := by
    simp [ruleBlocks]
  have group := (group_yields here
      (by rw [mirrors.sourceGroup, ← groupRef_eq]; rfl) sound).within_blocks
    separate match_ (by simp) (List.prefix_refl _) here.conforms
  have address : Yields kinds ["source", "address"]
      (subtree ["source", "address"] node) _ (sourceMatch live u) :=
    address_yields (here.shape (["source", "address"], .single)
      (by simp [ruleShape])) (by rw [mirrors.source, ← nestedStr_eq]; rfl)
  replace address := address.within_blocks separate match_ (by simp)
    (List.prefix_refl _) here.conforms
  have destinationGroup : subtree ["destination", "group"]
      (executeAll kinds (laid (ruleBlocks live u)) node) =
        subtree ["destination", "group"] node := by
    refine subtree_edited ?_
    simp only [written, ruleBlocks, List.flatMap_cons, List.flatMap_nil]
    cases u.natSection <;> decide
  have description := textAt_edited live here ["description"]
    (live.bind NatRule.description) u.description (by simp [ruleBlocks])
    (by simp [ruleShape])
    (by rw [mirrors.description, ← childStr_eq]; rfl)
  have sourcePort := textAt_edited live here ["source", "port"]
    (live.bind NatRule.sourcePort) u.sourcePort (by simp [ruleBlocks])
    (by simp [ruleShape])
    (by rw [mirrors.sourcePort, ← nestedStr_eq]; rfl)
  have destination := textAt_edited live here ["destination", "address"]
    (live.bind NatRule.destination) u.destinationAddress (by simp [ruleBlocks])
    (by simp [ruleShape])
    (by rw [mirrors.destination, ← nestedStr_eq]; rfl)
  have destinationPort := textAt_edited live here ["destination", "port"]
    (live.bind NatRule.destinationPort) u.destinationPort (by simp [ruleBlocks])
    (by simp [ruleShape])
    (by rw [mirrors.destinationPort, ← nestedStr_eq]; rfl)
  have protocol := textAt_edited live here ["protocol"]
    (live.bind NatRule.protocol) u.protocol (by simp [ruleBlocks])
    (by simp [ruleShape])
    (by rw [mirrors.protocol, ← childStr_eq]; rfl)
  have translationPort := textAt_edited live here ["translation", "port"]
    (live.bind NatRule.translationPort) u.translationPort (by simp [ruleBlocks])
    (by simp [ruleShape])
    (by rw [mirrors.translationPort, ← nestedStr_eq]; rfl)
  have translation := translationOf_edited here mirrors.translation sound
  have iface := ifaceOf_edited here mirrors.interface
  have enabled := enabled_edited here mirrors.enabled
  simp only [parseRule, NatRule.updated, childStr_eq, nestedStr_eq,
    groupRef_eq, Firewall.ruleNumber_toString, group, address,
    destinationGroup, description, sourcePort, destination, destinationPort,
    protocol, translationPort, translation, iface, enabled]

end Row

end QuartzFire.Nat44
