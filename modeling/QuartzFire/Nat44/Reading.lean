import QuartzFire.Foundation.ConfigCheck
import QuartzFire.Foundation.Keyed
import QuartzFire.Nat44.Rules

/-!
# What is read of a NAT rule

The configuration a device renders numbers its rules in decimal, so a rule is
where its number says, and each field of a listed rule is what one path of its
node holds.
-/

namespace QuartzFire.Nat44

open ConfigTree Editing
open Firewall (Cfg Path VyosCommand trim trimmed childStr has ruleNumber
  trimmed_trimmed)

/-- The part of the command schema below a rule. -/
def ruleShape (side : NatSection) : List (Path × Kind) :=
  [(["description"], .single), (["source", "address"], .single),
    (["source", "group"], .node), (["source", "port"], .single),
    (["destination", "address"], .single), (["destination", "port"], .single),
    (["protocol"], .single), (["translation", "address"], .single),
    (["translation", "port"], .single), ([side.ifaceKey], .node),
    ([side.ifaceKey, "name"], .single), ([side.ifaceKey, "group"], .single),
    (["disable"], .valueless)]

/-- What the code relies on of the command schema. -/
structure Schema (kinds : Kinds String) : Prop where
  rules : ∀ side : NatSection, ∀ key,
    NodePath kinds ["nat", side.text, "rule", key]
  body : ∀ side : NatSection, ∀ key,
    Shaped (kinds.below ["nat", side.text, "rule", key]) (ruleShape side)
  groups : ∀ side : NatSection, ∀ key type,
    kinds ["nat", side.text, "rule", key, "source", "group", type] = .single

/-- A name without white space. -/
def Word (text : String) : Prop :=
  text ≠ "" ∧ ∀ char ∈ text.toList, Firewall.isSpace char = false

/-- A section as a device renders it: rules are numbered in decimal, and groups
have names. -/
structure Rendered (kinds : Kinds String) (root : Cfg) (side : NatSection) :
    Prop where
  conforms : Conforms kinds root
  decimal : ∀ key body,
    subtree ["nat", side.text, "rule", key] root = some body →
      key = toString (ruleNumber key)
  types : ∀ key type leaf,
    subtree ["nat", side.text, "rule", key, "source", "group", type] root =
      some leaf → Word type
  names : ∀ key type name,
    subtree ["nat", side.text, "rule", key, "source", "group", type] root =
      some (.value name) → Word name

instance (text : String) : Decidable (Word text) :=
  @instDecidableAnd (text ≠ "") _ _
    (List.decidableBAll (Firewall.isSpace · = false) text.toList)

/-! ## A schema, to evaluate concrete configurations with -/

def bodyKind : Path → Kind
  | ["description"] | ["protocol"] => .single
  | ["disable"] | ["translation", "masquerade"] => .valueless
  | [_, "address"] | [_, "port"] | [_, "name"] | [_, "group", _] => .single
  | [key, "group"] =>
      if key = "source" ∨ key = "destination" then .node else .single
  | _ => .node

def natKinds : Kinds String
  | "nat" :: _ :: "rule" :: _ :: leaf => bodyKind leaf
  | _ => .node

theorem natSchema : Schema natKinds where
  rules side key := ⟨rfl, rfl, rfl, rfl, trivial⟩
  body side key := by
    cases side <;> exact of_decide_eq_true rfl
  groups side key type := rfl

/-- Whether a closed configuration is rendered. -/
def renderedCheck (root : Cfg) : Bool :=
  conformsCheck natKinds root &&
    allAt (fun key _ => key = toString (ruleNumber key))
      [some "nat", none, some "rule", none] root &&
    allAt (fun type leaf => Word type && (leafValues (some leaf)).all (Word ·))
      [some "nat", none, some "rule", none, some "source", some "group", none]
      root

theorem rendered_of_check {root : Cfg} (isNode : root = .node root.entries)
    (passes : renderedCheck root = true) (side : NatSection) :
    Rendered natKinds root side := by
  simp only [renderedCheck, Bool.and_eq_true] at passes
  obtain ⟨⟨conforms, decimal⟩, words⟩ := passes
  refine ⟨conforms_of_check isNode conforms, ?_, ?_, ?_⟩
  · intro key body found
    have canonical := allAt_sound ["nat", side.text, "rule"] decimal
      (by simp) found
    exact of_decide_eq_true canonical
  · intro key type leaf found
    have word := allAt_sound
      ["nat", side.text, "rule", key, "source", "group"] words (by simp) found
    rw [Bool.and_eq_true, decide_eq_true_eq] at word
    exact word.1
  · intro key type name found
    have word := allAt_sound
      ["nat", side.text, "rule", key, "source", "group"] words (by simp) found
    rw [Bool.and_eq_true] at word
    exact of_decide_eq_true (List.all_eq_true.mp word.2 name
      (by simp [leafValues]))

section Fields

theorem nestedStr_eq (v : Cfg) (parent child : String) :
    nestedStr v parent child = textAt (subtree [parent, child] v) := by
  have inside : nestedStr v parent child =
      childStr (childNode v parent) child := by
    rw [nestedStr, childNode]
    cases childCfg v parent with
    | none => rfl
    | some p => rfl
  rw [inside, childStr_eq, subtree_childNode]

theorem translationOf_eq (v : Cfg) :
    translationOf v = (textAt (subtree ["translation", "address"] v)).or
      (if (subtree ["translation", "masquerade"] v).isSome then
        some "masquerade" else none) := by
  rw [← subtree_childNode, ← subtree_childNode, ← childStr_eq, ← has_eq,
    translationOf, childNode]
  cases childCfg v "translation" with
  | none => rfl
  | some t => rfl

theorem ifaceOf_eq {v : Cfg} {key : String} {kinds : Kinds String}
    (conforms : Conforms kinds v) (isNode : kinds [key] = .node) :
    ifaceOf v key = match textAt (subtree [key, "name"] v) with
      | some name => (some name, false)
      | none =>
          match textAt (subtree [key, "group"] v) with
          | some group => (some group, true)
          | none => (none, false) := by
  rw [ifaceOf, subtree, subtree]
  cases found : v.child key with
  | none => rfl
  | some other =>
      have fits := conforms.fits_child found
      cases fits with
      | node =>
          simp only [childStr_eq, Option.bind_some]
          all_goals rfl
      | _ => simp_all

end Fields

section Listing

theorem perm_parseRules (nat : Cfg) (side : NatSection) :
    (parseRules nat side).Perm ((ruleNode nat side).entries.map
      fun entry => parseRule side entry.1 entry.2) :=
  List.perm_insertionSort _ _

@[simp] theorem rule_parseRule (side : NatSection) (number : String)
    (cfg : Cfg) : (parseRule side number cfg).rule = ruleNumber number := rfl

theorem child_ruleNode (root : Cfg) (side : NatSection) (key : String) :
    (ruleNode (natConfig root) side).child key =
      subtree ["nat", side.text, "rule", key] root := by
  rw [← subtree_singleton, ruleNode, natConfig, subtree_childNode,
    subtree_childNode, subtree_childNode]

variable {kinds : Kinds String} {root : Cfg}

theorem ruleNode_slice (schema : Schema kinds) (conforms : Conforms kinds root)
    (side : NatSection) : ruleNode (natConfig root) side =
      slice ["nat", side.text, "rule"] root := by
  have nodes := schema.rules side ""
  obtain ⟨nat, section', rule, _⟩ := nodes
  have first := conforms.slice (show NodePath kinds ["nat"] from
    ⟨nat, trivial⟩)
  have second := first.slice (show NodePath _ [side.text] from
    ⟨section', trivial⟩)
  rw [ruleNode, natConfig, childNode_slice _ _ conforms nat,
    childNode_slice _ _ first section', childNode_slice _ _ second rule]
  rw [slice_slice (by simp), slice_slice (by simp)]
  rfl

theorem conforms_ruleNode (schema : Schema kinds)
    (conforms : Conforms kinds root) (side : NatSection) :
    Conforms (kinds.below ["nat", side.text, "rule"])
      (ruleNode (natConfig root) side) := by
  rw [ruleNode_slice schema conforms]
  refine conforms.slice ?_
  obtain ⟨nat, section', rule, _⟩ := schema.rules side ""
  exact ⟨nat, section', rule, trivial⟩

/-- A listed rule is the one at its number. -/
theorem mem_parseRules (schema : Schema kinds) {side : NatSection}
    (rendered : Rendered kinds root side) (row : NatRule) :
    row ∈ parseRules (natConfig root) side ↔ ∃ body,
      subtree (ruleBase side row.rule) root = some body ∧
        row = parseRule side (toString row.rule) body := by
  have listed := conforms_ruleNode schema rendered.conforms side
  rw [(perm_parseRules _ _).mem_iff, List.mem_map]
  constructor
  · rintro ⟨⟨key, body⟩, member, rfl⟩
    have found : subtree ["nat", side.text, "rule", key] root = some body := by
      rw [← child_ruleNode]
      exact listed.mem_entries.mp member
    have canonical := rendered.decimal key body found
    rw [rule_parseRule, ruleBase, ← canonical]
    exact ⟨body, found, rfl⟩
  · rintro ⟨body, found, same⟩
    refine ⟨(toString row.rule, body), listed.mem_entries.mpr ?_, same.symm⟩
    rw [child_ruleNode]
    exact found

theorem nodup_rule_parseRules (schema : Schema kinds) {side : NatSection}
    (rendered : Rendered kinds root side) :
    ((parseRules (natConfig root) side).map NatRule.rule).Nodup := by
  have listed := conforms_ruleNode schema rendered.conforms side
  rw [((perm_parseRules _ _).map _).nodup_iff, List.map_map]
  refine List.Nodup.map_on ?_ listed.nodup_entries
  rintro ⟨left, first⟩ one ⟨right, second⟩ other same
  have one' := listed.mem_entries.mp one
  have other' := listed.mem_entries.mp other
  rw [child_ruleNode] at one' other'
  have canonical := rendered.decimal left first one'
  rw [show ruleNumber left = ruleNumber right from same,
    ← rendered.decimal right second other'] at canonical
  subst canonical
  rw [one', Option.some.injEq] at other'
  rw [other']

end Listing

/-! ## Fields as they are read -/

/-- The fields of a rule as a configuration can hold them. -/
structure NatRule.Legible (row : NatRule) : Prop where
  description : row.description.bind trimmed = row.description
  interface : row.interface.bind trimmed = row.interface
  source : row.source.bind trimmed = row.source
  sourcePort : row.sourcePort.bind trimmed = row.sourcePort
  destination : row.destination.bind trimmed = row.destination
  destinationPort : row.destinationPort.bind trimmed = row.destinationPort
  translation : row.translation.bind trimmed = row.translation
  translationPort : row.translationPort.bind trimmed = row.translationPort
  protocol : row.protocol.bind trimmed = row.protocol
  sourceGroup : ∀ group, row.sourceGroup = some group → ' ' ∈ group.toList

theorem bind_trimmed_childStr (cfg : Cfg) (key : String) :
    (childStr cfg key).bind trimmed = childStr cfg key := by
  rw [childStr_eq, textAt_bind_trimmed]

theorem bind_trimmed_nestedStr (cfg : Cfg) (parent child : String) :
    (nestedStr cfg parent child).bind trimmed = nestedStr cfg parent child := by
  rw [nestedStr_eq, textAt_bind_trimmed]

theorem bind_trimmed_trimmed (text : String) :
    (trimmed text).bind trimmed = trimmed text :=
  textAt_bind_trimmed (some (.value text))

theorem legible_parseRule (side : NatSection) (number : String) (cfg : Cfg) :
    (parseRule side number cfg).Legible where
  description := bind_trimmed_childStr _ _
  interface := by
    rw [parseRule, ifaceOf]
    dsimp only
    cases cfg.child side.ifaceKey with
    | none => rfl
    | some other =>
        have name := bind_trimmed_childStr other "name"
        have group := bind_trimmed_childStr other "group"
        cases other with
        | value text => simpa only using bind_trimmed_trimmed text
        | _ =>
            dsimp only
            split
            · simp_all
            · split <;> simp_all
  source := bind_trimmed_nestedStr _ _ _
  sourcePort := bind_trimmed_nestedStr _ _ _
  destination := bind_trimmed_nestedStr _ _ _
  destinationPort := bind_trimmed_nestedStr _ _ _
  translation := by
    rw [parseRule, translationOf_eq]
    dsimp only
    have address := textAt_bind_trimmed (subtree ["translation", "address"] cfg)
    cases shown : textAt (subtree ["translation", "address"] cfg) with
    | some text =>
        rw [shown] at address
        rw [Option.some_or, address]
    | none =>
        rw [Option.none_or]
        split
        · decide
        · rfl
  translationPort := bind_trimmed_nestedStr _ _ _
  protocol := bind_trimmed_childStr _ _
  sourceGroup := by
    intro group shown
    rw [parseRule, groupRef] at shown
    dsimp only at shown
    split at shown
    · split at shown
      · cases shown
        simp [String.toList_append]
      · cases shown
    · cases shown

end QuartzFire.Nat44
