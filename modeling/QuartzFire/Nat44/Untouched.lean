import QuartzFire.Nat44.Edit

/-!
# Saving a NAT rule untouched

The form fills in what a rule leaves out.  Which rules come out of it as they
went in is decided field by field.
-/

namespace QuartzFire.Nat44

open ConfigTree Editing
open Firewall (Cfg Path VyosCommand trimmed startsWith)

/-- Whatever the form submits for a rule it opened, with nothing entered, only
drops an explicit `protocol all`. -/
def SavesUntouched (number : String → Option Nat) (root : Cfg)
    (side : NatSection) (interfaces : List String)
    (builtins : List InterfaceAlias) (rule : NatRule) : Prop :=
  ∀ u, submit number side (some rule) ((fetchNat44 root).rules side)
      ((fetchNat44 root).staticNat.map StaticNatMapping.rule)
      (initialForm side (some rule) interfaces builtins) = .ok u →
    ∀ command ∈ diffNatRule ((fetchNat44 root).rules side) u,
      command = .delete (ruleBase side rule.rule ++ ["protocol"]) ∧
        rule.protocol.any saysAll = true

/-- The form does not submit the rule as it is. -/
def Refuses (side : NatSection) (rule : NatRule) : Prop :=
  rule.rule < 1 ∨ 999999 < rule.rule ∨
    side = .destination ∧
      (rule.translation = none ∨ rule.translation = some "masquerade")

/-- What the form opens with says the same as the rule. -/
structure Reopens (side : NatSection) (interfaces : List String)
    (rule : NatRule) : Prop where
  interface : rule.interface ≠ none ∨ interfaces.head?.bind trimmed = none
  oneSource : rule.source = none ∨ rule.sourceGroup = none
  group : ∀ group, rule.sourceGroup = some group →
    Plain group ∧ startsWith group netPrefix = false
  translation : side = .source → rule.translation ≠ none ∧
    (rule.translation = some "masquerade" → rule.translationPort = none)

/-! ## The listed rules -/

section Listed

variable {kinds : Kinds String} {root : Cfg} {side : NatSection}
  {rule : NatRule}

theorem rules_sublist (root : Cfg) (side : NatSection) :
    ((fetchNat44 root).rules side).Sublist
      (parseRules (natConfig root) side) := by
  cases side <;> exact List.filter_sublist

theorem nodup_rule_rules (schema : Schema kinds)
    (rendered : Rendered kinds root side) :
    (((fetchNat44 root).rules side).map NatRule.rule).Nodup :=
  (nodup_rule_parseRules schema rendered).sublist
    ((rules_sublist root side).map _)

theorem not_mem_static (listed : rule ∈ (fetchNat44 root).rules side) :
    rule.rule ∉ (fetchNat44 root).staticNat.map StaticNatMapping.rule := by
  cases side <;> exact of_decide_eq_true (List.mem_filter.mp listed).2

theorem legible_of_mem {nat : Cfg} (listed : rule ∈ parseRules nat side) :
    rule.Legible := by
  rw [(perm_parseRules _ _).mem_iff, List.mem_map] at listed
  obtain ⟨entry, _, rfl⟩ := listed
  exact legible_parseRule side entry.1 entry.2

end Listed

/-! ## Field by field -/

section Form

variable (side : NatSection) {rule : NatRule} (interfaces : List String)
  (builtins : List InterfaceAlias)

/-- The update of the form left as it opened. -/
def untouched (rule : NatRule) : NatRuleUpdate :=
  (initialForm side (some rule) interfaces builtins).update side (some rule)
    rule.rule

theorem iface_untouched (legible : rule.Legible) :
    ((untouched side interfaces builtins rule).interface.bind trimmed =
        rule.interface) ↔
      rule.interface ≠ none ∨ interfaces.head?.bind trimmed = none := by
  have own := legible.interface
  simp only [untouched, NatRuleForm.update, initialForm, Option.bind_some,
    bind_trimmed_trimmed]
  cases shown : rule.interface with
  | some name => simpa [shown] using own
  | none =>
      rw [Option.none_or]
      cases interfaces.head? with
      | none => simp only [Option.getD_none]; decide
      | some first => simp

theorem protocol_untouched (legible : rule.Legible) :
    ∀ command ∈ leaf ["protocol"] rule.protocol
        (untouched side interfaces builtins rule).protocol,
      command = .delete ["protocol"] ∧ rule.protocol.any saysAll = true := by
  have own := legible.protocol
  have update : (untouched side interfaces builtins rule).protocol =
      rule.protocol.filter fun text => !saysAll text := by
    simp only [untouched, NatRuleForm.update, initialForm, Option.bind_some]
    cases shown : rule.protocol with
    | some text =>
        have own : trimmed text = some text := by simpa [shown] using own
        rw [Option.getD_some, own]
    | none => decide
  rw [update]
  intro command member
  cases shown : rule.protocol with
  | none =>
      rw [shown, Option.filter_none, leaf_unchanged_none] at member
      cases member
  | some text =>
      rw [shown] at member own
      by_cases all : saysAll text = true
      · rw [leaf_delete (by simp [all]) (by simp)] at member
        simpa [all] using member
      · rw [Option.filter_some, if_pos (by simpa using all),
          leaf_same own] at member
        cases member

theorem netAlias_prefix (network : String) :
    netAlias (netPrefix ++ network) = some network := by
  have starts : startsWith (netPrefix ++ network) netPrefix = true := by
    rw [startsWith, String.toList_append]
    exact List.isPrefixOf_iff_prefix.mpr (List.prefix_append _ _)
  rw [netAlias, if_pos starts, String.toList_append,
    ← String.length_toList, List.drop_left, String.ofList_toList]

/-- A group that is taken for a network gives a text. -/
theorem netAlias_proper {group : String} (spaced : ' ' ∈ group.toList)
    (starts : startsWith group netPrefix = true) :
    ∃ network, netAlias group = some network ∧ network ≠ "" := by
  refine ⟨_, if_pos starts, fun empty => ?_⟩
  obtain ⟨rest, same⟩ := List.isPrefixOf_iff_prefix.mp starts
  rw [← same, ← String.length_toList, List.drop_left] at empty
  have ends : rest = [] := by
    simpa using congrArg String.toList empty
  rw [← same, ends, List.append_nil] at spaced
  revert spaced
  decide

/-- The source comes out as it is listed if it is one of an address and a
group, and the group is not taken for a network. -/
theorem source_untouched (legible : rule.Legible) :
    ((untouched side interfaces builtins rule).sourceAddress.bind trimmed =
          rule.source ∧
        (untouched side interfaces builtins rule).sourceGroup.bind trimmed =
          rule.sourceGroup) ↔
      (rule.source = none ∨ rule.sourceGroup = none) ∧
        ∀ group, rule.sourceGroup = some group →
          Plain group ∧ startsWith group netPrefix = false := by
  have own := legible.source
  simp only [untouched, NatRuleForm.update, initialForm, Option.bind_some]
  rcases Option.eq_none_or_eq_some rule.sourceGroup with noGroup | ⟨group, shows⟩
  · simp only [noGroup]
    rcases Option.eq_none_or_eq_some rule.source with noSource | ⟨source, holds⟩
    · simp [initialNet, noSource]
    · have own : trimmed source = some source := by simpa [holds] using own
      by_cases builtin : builtins.any fun b => source ∈ b.networks
      · have proper : source ≠ "" := by
          rintro rfl
          revert own
          decide
        have net : initialNet (some rule) builtins =
            some (netPrefix ++ source) := by
          simp only [initialNet, Option.bind_some, holds, builtin, if_true]
        simp [net, netAlias_prefix, proper, own, holds]
      · have net : initialNet (some rule) builtins = none := by
          simp only [initialNet, Option.bind_some, holds, builtin,
            Bool.false_eq_true, if_false]
        simp [net, own, holds]
  · have spaced := legible.sourceGroup group shows
    have proper : group ≠ "" := by
      rintro rfl
      simp at spaced
    simp only [shows]
    cases starts : startsWith group netPrefix with
    | true =>
        obtain ⟨network, net, filled⟩ := netAlias_proper spaced starts
        simp [proper, net, filled, starts]
    | false =>
        have net : netAlias group = none := by simp [netAlias, starts]
        simp [proper, net, starts, Plain, eq_comm (a := none)]

/-- A translation comes out as it is listed unless it is none, or a masquerade
with a port. -/
theorem translation_untouched (legible : rule.Legible)
    (valued : side = .destination →
      rule.translation ≠ none ∧ rule.translation ≠ some "masquerade") :
    ((untouched side interfaces builtins rule).translationAddress.bind
          trimmed = rule.translation ∧
        (untouched side interfaces builtins rule).translationPort.bind
          trimmed = rule.translationPort) ↔
      (side = .source → rule.translation ≠ none ∧
        (rule.translation = some "masquerade" →
          rule.translationPort = none)) := by
  have own := legible.translation
  have port := trimmed_getD legible.translationPort
  have masquerade : trimmed "masquerade" = some "masquerade" := by decide
  simp only [untouched, NatRuleForm.update, initialForm, Option.bind_some]
  rcases Option.eq_none_or_eq_some rule.translation with none | ⟨text, shows⟩
  · cases side with
    | source => simp [none, masquerade]
    | destination => exact absurd none (valued rfl).1
  · by_cases masquerades : text = "masquerade"
    · subst masquerades
      cases side with
      | source => simp [shows, masquerade, eq_comm]
      | destination => exact absurd shows (valued rfl).2
    · have kept : trimmed (Firewall.trim text) = some text := by
        have same : trimmed text = some text := by simpa [shows] using own
        have trims : Firewall.trim text = text := by
          rw [trimmed, Option.ite_none_left_eq_some] at same
          exact Option.some.inj same.2
        rw [trims, same]
      simp [shows, masquerades, kept, port, legible.translationPort]

theorem others_untouched (legible : rule.Legible) :
    (untouched side interfaces builtins rule).description.bind trimmed =
        rule.description ∧
      (untouched side interfaces builtins rule).sourcePort.bind trimmed =
        rule.sourcePort ∧
      (untouched side interfaces builtins rule).destinationAddress.bind
        trimmed = rule.destination ∧
      (untouched side interfaces builtins rule).destinationPort.bind trimmed =
        rule.destinationPort ∧
      (untouched side interfaces builtins rule).enabled = rule.enabled := by
  simp only [untouched, NatRuleForm.update, initialForm, Option.bind_some,
    Option.map_some, Option.getD_some, and_true]
  rw [trimmed_getD legible.description, trimmed_getD legible.sourcePort,
    trimmed_getD legible.destination, trimmed_getD legible.destinationPort]
  exact ⟨legible.description, legible.sourcePort, legible.destination,
    legible.destinationPort⟩

section Quiet

variable {live desired : Option String} {allowed : Prop}

theorem leaf_only_iff (path : Path) (elsewhere : Diverges path ["protocol"]) :
    (∀ command ∈ leaf path live desired,
        command = .delete ["protocol"] ∧ allowed) ↔
      desired.bind trimmed = live := by
  have spared : Spares ["protocol"] (leaf path live desired) :=
    (Block.Local.ofBelow (leaf_local path live desired)).spares
      (by simpa using elsewhere)
  exact (Spares.only_iff spared).trans leaf_eq_nil_iff

end Quiet

/-- What the untouched form pushes. -/
theorem pushed_untouched (legible : rule.Legible)
    (valued : side = .destination →
      rule.translation ≠ none ∧ rule.translation ≠ some "masquerade") :
    (∀ command ∈ laid (ruleBlocks (some rule)
          (untouched side interfaces builtins rule)),
        command = .delete ["protocol"] ∧
          rule.protocol.any saysAll = true) ↔
      Reopens side interfaces rule := by
  generalize made : untouched side interfaces builtins rule = u
  have spared : Spares ["protocol"] (sourceMatch (some rule) u) :=
    (sourceMatch_local _ _).spares (by simp; decide)
  have unbound : Spares ["protocol"] (interfaceMatch (some rule) u) :=
    (Block.Local.ofBelow (interfaceMatch_local _ _)).spares
      (by cases u.natSection <;> simp <;> decide)
  have iface := iface_untouched side interfaces builtins legible
  have source := source_untouched side interfaces builtins legible
  have translation := translation_untouched side interfaces builtins legible
    valued
  have protocol := protocol_untouched side interfaces builtins legible
  obtain ⟨description, sourcePort, destination, destinationPort, enabled⟩ :=
    others_untouched side interfaces builtins legible
  rw [made] at *
  simp only [laid, ruleBlocks, List.forall_mem_flatMap, List.forall_mem_cons,
    List.not_mem_nil, IsEmpty.forall_iff, implies_true, and_true,
    Option.bind_some, Option.map_some, Option.getD_some, enabled,
    flag_unchanged, iff_true_intro protocol, true_and, Spares.only_iff spared,
    Spares.only_iff unbound, sourceMatch_eq_nil_iff, interfaceMatch_eq_nil_iff,
    leaf_only_iff ["description"] (by decide),
    leaf_only_iff ["source", "port"] (by decide),
    leaf_only_iff ["destination", "address"] (by decide),
    leaf_only_iff ["destination", "port"] (by decide),
    leaf_only_iff ["translation", "address"] (by decide),
    leaf_only_iff ["translation", "port"] (by decide),
    description, sourcePort, destination, destinationPort]
  rw [← and_assoc (c := _ = rule.interface), iface, source, translation]
  constructor
  · rintro ⟨⟨oneSource, group⟩, translates, interface⟩
    exact ⟨interface, oneSource, group, translates⟩
  · rintro ⟨interface, oneSource, group, translates⟩
    exact ⟨⟨oneSource, group⟩, translates, interface⟩

end Form

/-! ## Submitting the untouched form -/

section Submitting

variable {kinds : Kinds String} {root : Cfg} {side : NatSection}
  {rule : NatRule} {interfaces : List String} {builtins : List InterfaceAlias}
  {number : String → Option Nat}

/-- The form submits the rule as it is unless it refuses it. -/
theorem submit_untouched (reads : ∀ num, number (toString num) = some num)
    (legible : rule.Legible) (listed : rule ∈ (fetchNat44 root).rules side)
    (accepted : ¬ Refuses side rule) (u : NatRuleUpdate) :
    submit number side (some rule) ((fetchNat44 root).rules side)
        ((fetchNat44 root).staticNat.map StaticNatMapping.rule)
        (initialForm side (some rule) interfaces builtins) = .ok u ↔
      untouched side interfaces builtins rule = u := by
  have form : number (initialForm side (some rule) interfaces builtins).rule =
      some rule.rule := reads rule.rule
  rw [submit_ok_iff, form]
  simp only [Option.some.injEq, exists_eq_left']
  simp only [Refuses, not_or, not_and, not_lt] at accepted
  obtain ⟨least, most, translates⟩ := accepted
  have own : ∀ r ∈ (fetchNat44 root).rules side, r.rule = rule.rule →
      Option.any (·.rule = r.rule) (some rule) = true := by
    intro r _ same
    simpa using same.symm
  have translation :
      (initialForm side (some rule) interfaces builtins).masquerade = true ∨
        Firewall.trim (initialForm side (some rule) interfaces
          builtins).translationAddress ≠ "" := by
    have plain := legible.translation
    simp only [initialForm, Option.bind_some]
    rcases Option.eq_none_or_eq_some rule.translation with none | ⟨text, shows⟩
    · cases side with
      | source => simp [none]
      | destination => exact absurd none (translates rfl).1
    · by_cases masquerades : text = "masquerade"
      · cases side with
        | source => simp [shows, masquerades]
        | destination => exact absurd (masquerades ▸ shows) (translates rfl).2
      · have proper : trimmed text = some text := by simpa [shows] using plain
        rw [trimmed, Option.ite_none_left_eq_some] at proper
        simp [shows, masquerades, proper.1]
  have source :
      (initialForm side (some rule) interfaces builtins).sourceMode = .alias →
        (initialForm side (some rule) interfaces builtins).sourceGroup ≠
          "" := by
    simp only [initialForm, Option.bind_some]
    rcases Option.eq_none_or_eq_some rule.sourceGroup with none | ⟨group, shows⟩
    · simp only [none]
      rcases Option.eq_none_or_eq_some (initialNet (some rule) builtins) with
        absent | ⟨net, opens⟩
      · simp [absent]
      · have proper : net ≠ "" := by
          obtain ⟨source, _, builtin⟩ := Option.bind_eq_some_iff.mp opens
          split at builtin
          · cases builtin
            intro empty
            have lengths := congrArg String.length empty
            simp [netPrefix, String.length_append] at lengths
          · cases builtin
        simp [opens, proper]
    · have proper : group ≠ "" := by
        have spaced := legible.sourceGroup group shows
        rintro rfl
        simp at spaced
      simp [shows, proper]
  exact ⟨fun ok => ok.2.2.2.2.2, fun same =>
    ⟨⟨least, most⟩, own, not_mem_static listed, translation, source, same⟩⟩

/-- The form refuses what it is said to refuse. -/
theorem submit_refused (reads : ∀ num, number (toString num) = some num)
    {existing : List NatRule} {takenRules : List Nat}
    (refuses : Refuses side rule) (u : NatRuleUpdate) :
    submit number side (some rule) existing takenRules
      (initialForm side (some rule) interfaces builtins) ≠ .ok u := by
  have form : number (initialForm side (some rule) interfaces builtins).rule =
      some rule.rule := reads rule.rule
  intro submits
  rw [submit_ok_iff, form] at submits
  obtain ⟨num, same, ⟨least, most⟩, _, _, translation, _⟩ := submits
  cases same
  rcases refuses with few | many | ⟨rfl, none | masquerades⟩
  · omega
  · omega
  · rcases translation with masquerade | address
    · simp [initialForm] at masquerade
    · simp only [initialForm, Option.bind_some, none] at address
      exact address (by decide)
  · rcases translation with masquerade | address
    · simp [initialForm] at masquerade
    · simp only [initialForm, Option.bind_some, masquerades] at address
      exact address (by decide)

/-- Saving a rule untouched leaves it alone exactly when the form refuses it, or
opens with what the rule says. -/
theorem savesUntouched_iff (schema : Schema kinds)
    (rendered : Rendered kinds root side)
    (reads : ∀ num, number (toString num) = some num)
    (listed : rule ∈ (fetchNat44 root).rules side) :
    SavesUntouched number root side interfaces builtins rule ↔
      Refuses side rule ∨ Reopens side interfaces rule := by
  have legible := legible_of_mem ((rules_sublist root side).mem listed)
  by_cases refuses : Refuses side rule
  · refine iff_of_true (fun u submits => ?_) (.inl refuses)
    exact absurd submits (submit_refused reads refuses u)
  · have valued : side = .destination →
        rule.translation ≠ none ∧ rule.translation ≠ some "masquerade" := by
      simp only [Refuses, not_or, not_and] at refuses
      exact refuses.2.2
    have live := diffNatRule_of_live
      (u := untouched side interfaces builtins rule)
      (nodup_rule_rules schema rendered) listed rfl
      (by simp [NatRuleUpdate.moved, untouched, NatRuleForm.update])
    rw [or_iff_right refuses, ← pushed_untouched side interfaces builtins
      legible valued, SavesUntouched]
    simp only [submit_untouched reads legible listed refuses, forall_eq']
    rw [live]
    simp only [List.forall_mem_map]
    refine forall₂_congr fun command _ => and_congr_left' ?_
    cases command <;> simp [Command.under, untouched, NatRuleForm.update]

end Submitting

/-- A source rule for any outbound interface, and one for a given one. -/
def twoRules : Cfg :=
  .node [("nat", .node [("source", .node [("rule", .node
    [("10", .node
      [("source", .node [("address", .value "10.0.0.0/24")]),
        ("translation", .node [("address", .value "masquerade")])]),
      ("20", .node
      [("outbound-interface", .node [("group", .value "WAN")]),
        ("protocol", .value "all"),
        ("source", .node [("group", .node
          [("network-group", .value "LAN")])]),
        ("translation", .node [("address", .value "192.0.2.1")])])])])])]

def anyInterface : NatRule :=
  parseRule .source "10" ((subtree ["nat", "source", "rule", "10"] twoRules).getD
    (.node []))

def givenInterface : NatRule :=
  parseRule .source "20" ((subtree ["nat", "source", "rule", "20"] twoRules).getD
    (.node []))

theorem savesUntouched_givenInterface :
    SavesUntouched decimals.number twoRules .source ["eth0"] []
      givenInterface :=
  (savesUntouched_iff natSchema (rendered_of_check rfl (by decide +kernel) _)
    decimals_number (by decide +kernel)).mpr (.inr
      { interface := .inl (by decide +kernel)
        oneSource := .inl (by decide +kernel)
        group := by
          intro group shows
          cases shows
          exact ⟨by decide +kernel, by decide +kernel⟩
        translation := fun _ => by decide +kernel })

/-- The rule for any interface comes out as a rule for the first one. -/
theorem anyInterface_narrowed :
    anyInterface ∈ (fetchNat44 twoRules).rules .source ∧
      Command.set (ruleBase .source 10 ++ ["outbound-interface", "name", "eth0"])
        ∈ diffNatRule ((fetchNat44 twoRules).rules .source)
          (untouched .source ["eth0"] [] anyInterface) ∧
      ¬ SavesUntouched decimals.number twoRules .source ["eth0"] []
        anyInterface := by
  have listed : anyInterface ∈ (fetchNat44 twoRules).rules .source := by
    decide +kernel
  have narrowed : Command.set
      (ruleBase .source 10 ++ ["outbound-interface", "name", "eth0"]) ∈
        diffNatRule ((fetchNat44 twoRules).rules .source)
          (untouched .source ["eth0"] [] anyInterface) := by
    decide +kernel
  refine ⟨listed, narrowed, fun saves => ?_⟩
  obtain ⟨drops, _⟩ := saves (untouched .source ["eth0"] [] anyInterface) rfl _
    narrowed
  cases drops

end QuartzFire.Nat44
