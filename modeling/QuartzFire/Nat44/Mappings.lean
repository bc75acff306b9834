import QuartzFire.Nat44.Static

/-!
# Reading and saving 1-to-1 mappings

What the mapping form lists, what saving a mapping untouched pushes, and what
applying and deleting a mapping make of the configuration.
-/

namespace QuartzFire.Nat44

open ConfigTree Editing
open Firewall (Cfg Path VyosCommand trimmed)

/-- Every rule is in one place: plain, or half of one mapping; and the mappings
are the pairs whose addresses mirror. -/
structure Lifted (root : Cfg) : Prop where
  listed : ∀ side, (fetchNat44 root).rules side ⊆
    parseRules (natConfig root) side
  place : ∀ side, ∀ row ∈ parseRules (natConfig root) side,
    row ∈ (fetchNat44 root).rules side ∧
        (∀ mapping ∈ (fetchNat44 root).staticNat, mapping.rule ≠ row.rule) ∨
      row ∉ (fetchNat44 root).rules side ∧
        ∃! mapping, mapping ∈ (fetchNat44 root).staticNat ∧
          mapping.rule = row.rule
  halves : ∀ mapping ∈ (fetchNat44 root).staticNat,
    ∃ s ∈ parseRules (natConfig root) .source,
      ∃ d ∈ parseRules (natConfig root) .destination,
        d.rule = s.rule ∧ staticOf s d = some mapping
  mirrored : ∀ s ∈ parseRules (natConfig root) .source,
    ∀ d ∈ parseRules (natConfig root) .destination, d.rule = s.rule →
      ((∃ mapping ∈ (fetchNat44 root).staticNat, mapping.rule = s.rule) ↔
        Mirrored s d)

section Reading

variable {kinds : Kinds String} {root : Cfg}

theorem mem_staticNat (schema : Schema kinds)
    (rendered : ∀ side, Rendered kinds root side)
    (mapping : StaticNatMapping) :
    mapping ∈ (fetchNat44 root).staticNat ↔
      ∃ s ∈ parseRules (natConfig root) .source,
        ∃ d ∈ parseRules (natConfig root) .destination,
          d.rule = s.rule ∧ staticOf s d = some mapping :=
  mem_staticNat_iff (nodup_rule_parseRules schema (rendered .destination))

theorem nodup_rule_mappings (schema : Schema kinds)
    (rendered : ∀ side, Rendered kinds root side) :
    ((fetchNat44 root).staticNat.map StaticNatMapping.rule).Nodup :=
  nodup_rule_staticNat (nodup_rule_parseRules schema (rendered .source))

theorem lifted (schema : Schema kinds)
    (rendered : ∀ side, Rendered kinds root side) : Lifted root where
  listed side := (rules_sublist root side).subset
  place := by
    intro side row member
    by_cases paired : row.rule ∈
        (fetchNat44 root).staticNat.map StaticNatMapping.rule
    · refine .inr ⟨fun plain => not_mem_static plain paired, ?_⟩
      obtain ⟨mapping, one, same⟩ := List.mem_map.mp paired
      refine ⟨mapping, ⟨one, same⟩, fun other also => ?_⟩
      exact eq_of_key (nodup_rule_mappings schema rendered) also.1 one
        (also.2.trans same.symm)
    · refine .inl ⟨(plain_or_paired member).resolve_right paired, ?_⟩
      intro mapping one same
      exact paired (same ▸ List.mem_map_of_mem one)
  halves mapping member := (mem_staticNat schema rendered mapping).mp member
  mirrored := by
    intro s inSource d inDestination pair
    constructor
    · rintro ⟨mapping, member, same⟩
      obtain ⟨first, one, second, other, pair', made⟩ :=
        (mem_staticNat schema rendered mapping).mp member
      have rules : first.rule = s.rule := (rule_staticOf made).symm.trans same
      have own := eq_of_key (nodup_rule_parseRules schema (rendered .source))
        one inSource rules
      have half := eq_of_key
        (nodup_rule_parseRules schema (rendered .destination)) other
        inDestination (pair'.trans (rules.trans pair.symm))
      rw [← own, ← half, ← staticOf_isSome_iff]
      exact ⟨mapping, made⟩
    · intro mirrors
      obtain ⟨mapping, made⟩ := (staticOf_isSome_iff s d).mpr mirrors
      exact ⟨mapping, (mem_staticNat schema rendered mapping).mpr
        ⟨s, inSource, d, inDestination, pair, made⟩, rule_staticOf made⟩

end Reading

/-! ## Saving a mapping untouched -/

section Untouched

variable {row : NatRule} {u : NatRuleUpdate}

/-- The update says what the row shows. -/
structure Agrees (u : NatRuleUpdate) (row : NatRule) : Prop where
  description : u.description.bind trimmed = row.description
  source : u.sourceAddress.bind trimmed = row.source
  sourceGroup : u.sourceGroup.bind trimmed = row.sourceGroup
  sourcePort : u.sourcePort.bind trimmed = row.sourcePort
  destination : u.destinationAddress.bind trimmed = row.destination
  destinationPort : u.destinationPort.bind trimmed = row.destinationPort
  protocol : u.protocol.bind trimmed = row.protocol
  translation : u.translationAddress.bind trimmed = row.translation
  translationPort : u.translationPort.bind trimmed = row.translationPort
  interface : u.interface.bind trimmed = row.interface
  enabled : u.enabled = row.enabled

theorem laid_eq_nil_iff :
    laid (ruleBlocks (some row) u) = [] ↔ Agrees u row := by
  simp only [laid, ruleBlocks, List.flatMap_cons, List.flatMap_nil,
    List.append_nil, List.append_eq_nil_iff, leaf_eq_nil_iff,
    flag_eq_nil_iff, sourceMatch_eq_nil_iff, interfaceMatch_eq_nil_iff,
    Option.bind_some, Option.map_some, Option.getD_some, Bool.not_inj_iff]
  constructor
  · rintro ⟨description, ⟨source, sourceGroup⟩, sourcePort, destination,
      destinationPort, protocol, translation, translationPort, interface,
      enabled⟩
    exact ⟨description, source, sourceGroup, sourcePort, destination,
      destinationPort, protocol, translation, translationPort, interface,
      enabled⟩
  · intro agrees
    exact ⟨agrees.description, ⟨agrees.source, agrees.sourceGroup⟩,
      agrees.sourcePort, agrees.destination, agrees.destinationPort, agrees.protocol,
      agrees.translation, agrees.translationPort, agrees.interface, agrees.enabled⟩

/-- A save in place pushes nothing exactly when it says what the rule shows. -/
theorem diffNatRule_eq_nil_iff {existing : List NatRule}
    (distinct : (existing.map NatRule.rule).Nodup) (listed : row ∈ existing)
    (same : u.rule = row.rule) (stays : u.moved = false) :
    diffNatRule existing u = [] ↔ Agrees u row := by
  rw [diffNatRule_of_live distinct listed same stays, List.map_eq_nil_iff,
    laid_eq_nil_iff]

end Untouched

/-- The two rules match nothing but what the mapping says, and agree with it. -/
structure Bare (mapping : StaticNatMapping) (s d : NatRule) : Prop where
  descriptions : s.description = mapping.description ∧
    d.description = mapping.description
  interfaces : s.interface = mapping.interface ∧
    d.interface = mapping.interface
  enabled : s.enabled = mapping.enabled ∧ d.enabled = mapping.enabled
  source : s.sourceGroup = none ∧ s.sourcePort = none ∧
    s.destination = none ∧ s.destinationPort = none
  destination : d.source = none ∧ d.sourceGroup = none ∧
    d.sourcePort = none ∧ d.destinationPort = none
  translationPorts : s.translationPort = none ∧ d.translationPort = none
  protocols : s.protocol = none ∧ d.protocol = none

section Saving

variable {kinds : Kinds String} {root : Cfg} {number : String → Option Nat}
  {mapping : StaticNatMapping} {s d : NatRule}

/-- What is lifted from a pair. -/
theorem staticOf_eq_some_iff :
    staticOf s d = some mapping ↔
      s.source = some mapping.internalAddress ∧
        s.translation = some mapping.externalAddress ∧
        d.destination = some mapping.externalAddress ∧
        d.translation = some mapping.internalAddress ∧
        mapping =
          { rule := s.rule
            description := s.description.or d.description
            interface := if s.interfaceGroup then none else s.interface
            internalAddress := mapping.internalAddress
            externalAddress := mapping.externalAddress
            enabled := s.enabled && d.enabled } := by
  unfold staticOf
  cases s.source with
  | none => simp
  | some internal =>
      cases s.translation with
      | none => simp
      | some external =>
          dsimp only
          by_cases mirrors : d.destination = some external ∧
              d.translation = some internal
          · rw [if_pos mirrors, mirrors.1, mirrors.2, Option.some.injEq]
            constructor
            · rintro rfl
              exact ⟨rfl, rfl, rfl, rfl, rfl⟩
            · rintro ⟨internals, externals, _, _, same⟩
              cases internals
              cases externals
              exact same.symm
          · rw [if_neg mirrors]
            simp only [reduceCtorEq, false_iff]
            rintro ⟨internals, externals, destination, translation, _⟩
            cases internals
            cases externals
            exact mirrors ⟨destination, translation⟩

/-- A mapping holds trimmed texts. -/
theorem legible_mapping (first : s.Legible) (second : d.Legible)
    (lifts : staticOf s d = some mapping) :
    mapping.description.bind trimmed = mapping.description ∧
      mapping.interface.bind trimmed = mapping.interface ∧
      trimmed mapping.internalAddress = some mapping.internalAddress ∧
      trimmed mapping.externalAddress = some mapping.externalAddress := by
  obtain ⟨internal, external, _, _, same⟩ := staticOf_eq_some_iff.mp lifts
  refine ⟨?_, ?_, ?_, ?_⟩
  · rw [same]
    have own := first.description
    have other := second.description
    cases shown : s.description with
    | none => simpa using other
    | some text =>
        rw [shown] at own
        rw [Option.some_or, own]
  · rw [same]
    dsimp only
    split
    · rfl
    · exact first.interface
  · have own := first.source
    rwa [internal, Option.bind_some] at own
  · have own := first.translation
    rwa [external, Option.bind_some] at own

/-- The update of a mapping form left as it opened. -/
def untouchedStatic (mapping : StaticNatMapping) : StaticNatUpdate :=
  (initialStatic (some mapping)).update (some mapping) mapping.rule

/-- The untouched form pushes nothing exactly for a bare pair. -/
theorem applyStaticNat_untouched_iff (schema : Schema kinds)
    (rendered : ∀ side, Rendered kinds root side)
    (inSource : s ∈ parseRules (natConfig root) .source)
    (inDestination : d ∈ parseRules (natConfig root) .destination)
    (pair : d.rule = s.rule) (lifts : staticOf s d = some mapping) :
    applyStaticNat root (untouchedStatic mapping) = [] ↔
      Bare mapping s d := by
  have rule := rule_staticOf lifts
  obtain ⟨description, interface, internal, external⟩ := legible_mapping
    (legible_of_mem inSource) (legible_of_mem inDestination) lifts
  obtain ⟨source, translation, destination, back, _⟩ :=
    staticOf_eq_some_iff.mp lifts
  have stays : (staticPair (untouchedStatic mapping)).1.moved = false ∧
      (staticPair (untouchedStatic mapping)).2.moved = false := by
    simp [NatRuleUpdate.moved, staticPair, untouchedStatic,
      StaticNatForm.update]
  rw [applyStaticNat, List.append_eq_nil_iff,
    diffNatRule_eq_nil_iff (nodup_rule_parseRules schema (rendered .source))
      inSource rule stays.1,
    diffNatRule_eq_nil_iff
      (nodup_rule_parseRules schema (rendered .destination)) inDestination
      (rule.trans pair.symm) stays.2]
  have trims : ∀ {text : String}, trimmed text = some text →
      Firewall.trim text = text := by
    intro text plain
    rw [trimmed, Option.ite_none_left_eq_some] at plain
    exact Option.some.inj plain.2
  have same : untouchedStatic mapping =
      { rule := mapping.rule
        description := mapping.description
        interface := mapping.interface
        internalAddress := mapping.internalAddress
        externalAddress := mapping.externalAddress
        enabled := mapping.enabled
        originalRule := some mapping.rule } := by
    simp only [untouchedStatic, initialStatic, StaticNatForm.update,
      Option.bind_some, Option.map_some, Option.getD_some,
      trimmed_getD description, trimmed_getD interface, trims internal,
      trims external]
  rw [same]
  constructor
  · rintro ⟨first, second⟩
    exact
      { descriptions := ⟨first.description.symm.trans description,
          second.description.symm.trans description⟩
        interfaces := ⟨first.interface.symm.trans interface,
          second.interface.symm.trans interface⟩
        enabled := ⟨first.enabled.symm, second.enabled.symm⟩
        source := ⟨first.sourceGroup.symm, first.sourcePort.symm,
          first.destination.symm, first.destinationPort.symm⟩
        destination := ⟨second.source.symm, second.sourceGroup.symm,
          second.sourcePort.symm, second.destinationPort.symm⟩
        translationPorts := ⟨first.translationPort.symm,
          second.translationPort.symm⟩
        protocols := ⟨first.protocol.symm, second.protocol.symm⟩ }
  · intro bare
    constructor
    · exact
        { description := description.trans bare.descriptions.1.symm
          source := by
            simpa only [staticPair, Option.bind_some, source] using internal
          sourceGroup := bare.source.1.symm
          sourcePort := bare.source.2.1.symm
          destination := bare.source.2.2.1.symm
          destinationPort := bare.source.2.2.2.symm
          protocol := bare.protocols.1.symm
          translation := by
            simpa only [staticPair, Option.bind_some, translation] using external
          translationPort := bare.translationPorts.1.symm
          interface := interface.trans bare.interfaces.1.symm
          enabled := bare.enabled.1.symm }
    · exact
        { description := description.trans bare.descriptions.2.symm
          source := bare.destination.1.symm
          sourceGroup := bare.destination.2.1.symm
          sourcePort := bare.destination.2.2.1.symm
          destination := by
            simpa only [staticPair, Option.bind_some, destination] using external
          destinationPort := bare.destination.2.2.2.symm
          protocol := bare.protocols.2.symm
          translation := by
            simpa only [staticPair, Option.bind_some, back] using internal
          translationPort := bare.translationPorts.2.symm
          interface := interface.trans bare.interfaces.2.symm
          enabled := bare.enabled.2.symm }

end Saving

/-! ## Applying a mapping -/

/-- The mapping an update asks for. -/
def StaticNatUpdate.desired (u : StaticNatUpdate) : StaticNatMapping :=
  { rule := u.rule
    description := u.description.bind trimmed
    interface := u.interface.bind trimmed
    internalAddress := u.internalAddress
    externalAddress := u.externalAddress
    enabled := u.enabled }

/-- The numbers an update is about. -/
def StaticNatUpdate.numbers (u : StaticNatUpdate) : List Nat :=
  u.rule :: u.originalRule.toList

/-- The desired mapping is there, and every other mapping and plain rule; what
is apart from the two rules is as before. -/
structure MappingApplied (root after : Cfg) (u : StaticNatUpdate) : Prop where
  mappings : (fetchNat44 after).staticNat.Perm
    (u.desired :: (fetchNat44 root).staticNat.filter (·.rule ∉ u.numbers))
  plain : ∀ side, ((fetchNat44 after).rules side).Perm
    ((fetchNat44 root).rules side)
  apart : ∀ probe, (∀ side, ∀ number ∈ u.numbers,
    Diverges (ruleBase side number) probe) →
      subtree probe after = subtree probe root

/-- Both halves are gone, and every other mapping and rule is there. -/
structure MappingDeleted (root after : Cfg) (number : Nat) : Prop where
  halves : ∀ side, subtree (ruleBase side number) after = none
  mappings : (fetchNat44 after).staticNat.Perm
    ((fetchNat44 root).staticNat.filter (·.rule ≠ number))
  plain : ∀ side, ((fetchNat44 after).rules side).Perm
    ((fetchNat44 root).rules side)
  apart : ∀ probe, (∀ side, Diverges (ruleBase side number) probe) →
    subtree probe after = subtree probe root

/-- The interface asked for is not the name of the interface group that the
source rule matches. -/
def NamesInterface (root : Cfg) (u : StaticNatUpdate) : Prop :=
  ∀ s ∈ parseRules (natConfig root) .source, s.rule = u.rule →
    s.interfaceGroup = true → s.interface ≠ u.interface.bind trimmed

section Applying

variable {kinds : Kinds String} {root : Cfg} {number : String → Option Nat}
  {initial : Option StaticNatMapping} {form : StaticNatForm}
  {u : StaticNatUpdate}

/-- An update the form submits: it has addresses, and its number is that of the
edited mapping or free. -/
structure Submitted (root : Cfg) (u : StaticNatUpdate) : Prop where
  addresses : trimmed u.internalAddress = some u.internalAddress ∧
    trimmed u.externalAddress = some u.externalAddress
  original : ∀ number, u.originalRule = some number →
    number ∈ (fetchNat44 root).staticNat.map StaticNatMapping.rule
  plain : ∀ side, ∀ row ∈ (fetchNat44 root).rules side, row.rule ≠ u.rule
  paired : u.rule ∈ (fetchNat44 root).staticNat.map StaticNatMapping.rule →
    u.originalRule = some u.rule

theorem submitted_of_submit
    (listed : ∀ mapping, initial = some mapping →
      mapping ∈ (fetchNat44 root).staticNat)
    (submits : submitStatic number initial (fetchNat44 root).staticNat
      (((fetchNat44 root).source ++ (fetchNat44 root).destination).map
        NatRule.rule) form = .ok u) : Submitted root u := by
  obtain ⟨num, _, _, ⟨internal, external⟩, free, untaken, rfl⟩ :=
    submitStatic_ok_iff.mp submits
  have trims : ∀ {text : String}, Firewall.trim text ≠ "" →
      trimmed (Firewall.trim text) = some (Firewall.trim text) := by
    intro text proper
    rw [trimmed, Firewall.trim_trim, if_neg proper]
  refine ⟨⟨trims internal, trims external⟩, ?_, ?_, ?_⟩
  · intro original edited
    obtain ⟨mapping, same, rfl⟩ := Option.map_eq_some_iff.mp edited
    exact List.mem_map_of_mem (listed mapping same)
  · intro side row plain same
    refine untaken (List.mem_map.mpr ⟨row, ?_, same⟩)
    cases side
    · exact List.mem_append_left _ plain
    · exact List.mem_append_right _ plain
  · intro paired
    obtain ⟨mapping, member, same⟩ := List.mem_map.mp paired
    have own := free mapping member same
    cases edited : initial with
    | none => simp [edited] at own
    | some first =>
        simp only [edited, Option.any_some, decide_eq_true_eq] at own
        show some first.rule = some num
        rw [own]
        exact congrArg some same

/-- The rule an edit of a half compares with is the half, or none. -/
theorem targets_half (schema : Schema kinds) {half : NatRuleUpdate}
    (rendered : ∀ side, Rendered kinds root side)
    (submitted : Submitted root u) (rule : half.rule = u.rule)
    (original : half.originalRule = u.originalRule) :
    Targets root (parseRules (natConfig root) half.natSection) half := by
  unfold Targets liveRule
  have whole := lifted schema rendered
  by_cases own : u.originalRule = some u.rule
  · have stays : half.moved = false := by
      simp [NatRuleUpdate.moved, original, own, rule]
    obtain ⟨mapping, member, number⟩ :=
      List.mem_map.mp (submitted.original u.rule own)
    obtain ⟨s, inSource, d, inDestination, pair, lifts⟩ :=
      whole.halves mapping member
    have first : s.rule = u.rule := (rule_staticOf lifts).symm.trans number
    obtain ⟨row, listed, same⟩ :
        ∃ row ∈ parseRules (natConfig root) half.natSection,
          row.rule = half.rule := by
      rw [rule]
      cases half.natSection with
      | source => exact ⟨s, inSource, first⟩
      | destination => exact ⟨d, inDestination, pair.trans first⟩
    obtain ⟨body, found, reads⟩ :=
      (mem_parseRules schema (rendered _) row).mp listed
    rw [stays, if_neg (by simp), ← same, find?_of_distinct
      (nodup_rule_parseRules schema (rendered _)) listed, found,
      Option.map_some, ← reads]
  · have free : ∀ row ∈ parseRules (natConfig root) half.natSection,
        row.rule ≠ half.rule := by
      intro row listed same
      rw [rule] at same
      rcases plain_or_paired listed with plain | paired
      · exact submitted.plain _ row plain same
      · exact own (submitted.paired (same ▸ paired))
    rw [subtree_of_free schema (rendered _) free, Option.map_none]
    split
    · rfl
    · exact List.find?_eq_none.mpr fun row listed same =>
        free row listed (by simpa using same)

theorem nodup_rule_put {rows rows' : List NatRule} {row : NatRule}
    {numbers : List Nat} (distinct : (rows.map NatRule.rule).Nodup)
    (perm : rows'.Perm (row :: rows.filter (·.rule ∉ numbers)))
    (among : row.rule ∈ numbers) : (rows'.map NatRule.rule).Nodup := by
  rw [(perm.map _).nodup_iff, List.map_cons, List.nodup_cons]
  refine ⟨fun member => ?_, distinct.sublist (List.filter_sublist.map _)⟩
  obtain ⟨other, inside, same⟩ := List.mem_map.mp member
  exact of_decide_eq_true (List.mem_filter.mp inside).2 (same ▸ among)

/-- A section that another one's edit leaves is still as a device renders it. -/
theorem rendered_edit {existing : List NatRule} {half : NatRuleUpdate}
    {side : NatSection} (rendered : Rendered kinds root side)
    (different : half.natSection ≠ side) :
    Rendered kinds (executeAll kinds (diffNatRule existing half) root)
      side := by
  have same : ∀ path, subtree ("nat" :: side.text :: path)
      (executeAll kinds (diffNatRule existing half) root) =
        subtree ("nat" :: side.text :: path) root :=
    fun path => subtree_edit_of_diverges (diverges_section different _ _)
      fun _ _ _ => diverges_section different _ _
  exact
    { conforms := rendered.conforms.executeAll
      decimal := fun key body found =>
        rendered.decimal key body (same _ ▸ found)
      types := fun key type leaf found =>
        rendered.types key type leaf (same _ ▸ found)
      names := fun key type name found =>
        rendered.names key type name (same _ ▸ found) }

theorem sound_half (submitted : Submitted root u) :
    (staticPair u).1.Sound ∧ (staticPair u).2.Sound := by
  obtain ⟨internal, external⟩ := submitted.addresses
  constructor
  · refine ⟨?_, .inl rfl⟩
    simp only [staticPair, Option.bind_some, external]
    simp
  · refine ⟨?_, .inl rfl⟩
    simp only [staticPair, Option.bind_some, internal]
    simp

/-- The halves after an update are a pair that is lifted to what it asks
for. -/
theorem staticOf_updated {shown shown' : NatRule}
    (addresses : trimmed u.internalAddress = some u.internalAddress ∧
      trimmed u.externalAddress = some u.externalAddress)
    (named : shown.interfaceGroup = true →
      shown.interface ≠ u.interface.bind trimmed) :
    staticOf (shown.updated (staticPair u).1)
      (shown'.updated (staticPair u).2) = some u.desired := by
  obtain ⟨internal, external⟩ := addresses
  have byName :
      (shown.updated (staticPair u).1).interfaceGroup = false := by
    simp only [NatRule.updated, staticPair]
    cases group : shown.interfaceGroup with
    | false => rfl
    | true => simpa [eq_comm] using named group
  rw [staticOf_eq_some_iff, byName]
  simp only [NatRule.updated, staticPair, StaticNatUpdate.desired,
    Option.bind_some, internal, external, Option.or_self, Bool.and_self,
    Bool.false_eq_true, if_false, and_self]

/-- What an edit of the source half starts from names no other interface. -/
theorem shown_named (schema : Schema kinds)
    (rendered : ∀ side, Rendered kinds root side)
    (named : NamesInterface root u) :
    (parseRule .source (toString u.rule)
        (slice (ruleBase .source u.rule) root)).interfaceGroup = true →
      (parseRule .source (toString u.rule)
        (slice (ruleBase .source u.rule) root)).interface ≠
          u.interface.bind trimmed := by
  cases found : subtree (ruleBase .source u.rule) root with
  | none =>
      rw [slice, found, Option.getD_none]
      intro group
      cases group
  | some body =>
      rw [slice_of_found found]
      have number : (parseRule .source (toString u.rule) body).rule = u.rule :=
        Firewall.ruleNumber_toString u.rule
      refine named _ ((mem_parseRules schema (rendered .source) _).mpr
        ⟨body, ?_, ?_⟩) number
      · rw [number, found]
      · rw [number]

/-- Applying a mapping the form submits makes it, and keeps the rest. -/
theorem mappingApplied (schema : Schema kinds)
    (rendered : ∀ side, Rendered kinds root side)
    (submitted : Submitted root u) (named : NamesInterface root u) :
    MappingApplied root (executeAll kinds (applyStaticNat root u) root) u := by
  obtain ⟨soundSource, soundDestination⟩ := sound_half submitted
  have targetsSource := targets_half schema rendered submitted
    (show (staticPair u).1.rule = u.rule from rfl) rfl
  have targetsDestination := targets_half schema rendered submitted
    (show (staticPair u).2.rule = u.rule from rfl) rfl
  have across : NatSection.source ≠ .destination := by decide
  let root₁ := executeAll kinds
    (diffNatRule (parseRules (natConfig root) .source) (staticPair u).1) root
  have rendered₁ : Rendered kinds root₁ .destination :=
    rendered_edit (rendered .destination) across
  have listed₁ : parseRules (natConfig root₁) .destination =
      parseRules (natConfig root) .destination :=
    parseRules_edit_other schema (rendered .source).conforms across
  have there₁ : subtree (ruleBase .destination u.rule) root₁ =
      subtree (ruleBase .destination u.rule) root :=
    subtree_edit_of_diverges (diverges_section across _ _)
      fun _ _ _ => diverges_section across _ _
  have targets₁ : Targets root₁ (parseRules (natConfig root) .destination)
      (staticPair u).2 := by
    unfold Targets
    exact targetsDestination.trans (congrArg _ there₁.symm)
  have after : executeAll kinds (applyStaticNat root u) root =
      executeAll kinds (diffNatRule
        (parseRules (natConfig root) .destination) (staticPair u).2) root₁ := by
    rw [applyStaticNat, executeAll_append]
  rw [after]
  -- What the two sections list in the end.
  have sources : (parseRules (natConfig root₁) .source).Perm
      ((parseRule .source (toString u.rule)
          (slice (ruleBase .source u.rule) root)).updated (staticPair u).1 ::
        (parseRules (natConfig root) .source).filter
          (·.rule ∉ u.numbers)) :=
    parseRules_edit schema (rendered .source) targetsSource soundSource
  have destinations : (parseRules (natConfig (executeAll kinds (diffNatRule
        (parseRules (natConfig root) .destination) (staticPair u).2) root₁))
        .destination).Perm
      ((parseRule .destination (toString u.rule)
          (slice (ruleBase .destination u.rule) root₁)).updated
            (staticPair u).2 ::
        (parseRules (natConfig root₁) .destination).filter
          (·.rule ∉ u.numbers)) :=
    parseRules_edit schema rendered₁ targets₁ soundDestination
  have kept : parseRules (natConfig (executeAll kinds (diffNatRule
        (parseRules (natConfig root) .destination) (staticPair u).2) root₁))
      .source = parseRules (natConfig root₁) .source :=
    parseRules_edit_other schema rendered₁.conforms across.symm
  generalize final : executeAll kinds (diffNatRule
    (parseRules (natConfig root) .destination) (staticPair u).2) root₁ =
      root₂ at *
  rw [← kept] at sources
  rw [listed₁] at destinations
  have distinct := nodup_rule_parseRules schema (rendered .source)
  have unique := nodup_rule_parseRules schema (rendered .destination)
  have own : u.rule ∈ u.numbers := List.mem_cons_self
  have mappings : (fetchNat44 root₂).staticNat.Perm (u.desired ::
      (fetchNat44 root).staticNat.filter (·.rule ∉ u.numbers)) :=
    staticNat_put distinct (nodup_rule_put distinct sources own) unique
      (nodup_rule_put unique destinations own) sources destinations rfl own
      (staticOf_updated submitted.addresses
        (shown_named schema rendered named))
  have numbers : ∀ number,
      number ∈ (fetchNat44 root₂).staticNat.map StaticNatMapping.rule ↔ _ :=
    fun _ => (mappings.map StaticNatMapping.rule).mem_iff
  have outside : ∀ side, ∀ row ∈ parseRules (natConfig root) side,
      row.rule ∉ (fetchNat44 root).staticNat.map StaticNatMapping.rule →
        row.rule ∉ u.numbers := by
    intro side row listed unpaired among
    rcases List.mem_cons.mp among with same | original
    · exact submitted.plain side row
        ((plain_or_paired listed).resolve_right unpaired) same
    · exact unpaired (submitted.original _ (Option.mem_toList.mp original))
  have lifted' : u.rule ∈
      (fetchNat44 root₂).staticNat.map StaticNatMapping.rule :=
    (numbers _).mpr (by simp [StaticNatUpdate.desired])
  have others : ∀ number ∉ u.numbers,
      (number ∈ (fetchNat44 root₂).staticNat.map StaticNatMapping.rule ↔
        number ∈ (fetchNat44 root).staticNat.map StaticNatMapping.rule) := by
    intro number elsewhere
    rw [numbers, List.map_cons, List.mem_cons, List.mem_map, List.mem_map]
    have different : number ≠ u.desired.rule := fun same =>
      elsewhere (same ▸ own)
    simp only [different, false_or, List.mem_filter, decide_eq_true_eq]
    refine exists_congr fun mapping => ⟨fun ⟨⟨one, _⟩, same⟩ => ⟨one, same⟩,
      fun ⟨one, same⟩ => ⟨⟨one, same ▸ elsewhere⟩, same⟩⟩
  have fresh : ∀ row : NatRule, row.rule = u.rule → ∀ other ∈ [row],
      other.rule ∈
        (fetchNat44 root₂).staticNat.map StaticNatMapping.rule := by
    intro row same other one
    rw [List.mem_singleton.mp one, same]
    exact lifted'
  refine ⟨mappings, fun side => ?_, fun probe elsewhere => ?_⟩
  · cases side with
    | source =>
        exact plain_perm sources (fresh _ rfl) others (outside .source)
    | destination =>
        exact plain_perm destinations (fresh _ rfl) others
          (outside .destination)
  · rw [← final, subtree_edit_of_diverges (elsewhere .destination _ own)
      fun other original _ => elsewhere .destination other
        (List.mem_cons_of_mem _ (Option.mem_toList.mpr original)),
      subtree_edit_of_diverges (elsewhere .source _ own)
      fun other original _ => elsewhere .source other
        (List.mem_cons_of_mem _ (Option.mem_toList.mpr original))]

theorem subtree_deleteStaticNat (side : NatSection) (number : Nat) :
    subtree (ruleBase side number)
      (executeAll kinds (deleteStaticNat number) root) = none := by
  have proper : ∀ side, ruleBase side number ≠ [] := by simp [ruleBase]
  have back : Diverges (ruleBase .destination number)
      (ruleBase .source number) := diverges_section (by decide) _ _
  rw [deleteStaticNat, executeAll, List.foldl_cons, List.foldl_cons,
    List.foldl_nil, execute, execute]
  cases side with
  | source =>
      rw [subtree_delete_of_diverges back]
      exact subtree_delete_below (proper _) (List.prefix_refl _) _
  | destination =>
      exact subtree_delete_below (proper _) (List.prefix_refl _) _

theorem subtree_deleteStaticNat_of_diverges {number : Nat} {probe : Path}
    (elsewhere : ∀ side, Diverges (ruleBase side number) probe) :
    subtree probe (executeAll kinds (deleteStaticNat number) root) =
      subtree probe root := by
  have spared : Spares probe (deleteStaticNat number) :=
    .cons (elsewhere .source) (.single (elsewhere .destination))
  exact spared.subtree_eq root

/-- Deleting a mapping removes its two halves alone. -/
theorem mappingDeleted (schema : Schema kinds)
    (rendered : ∀ side, Rendered kinds root side)
    {mapping : StaticNatMapping}
    (member : mapping ∈ (fetchNat44 root).staticNat) :
    MappingDeleted root
      (executeAll kinds (deleteStaticNat mapping.rule) root)
      mapping.rule := by
  have gone := fun side => @subtree_deleteStaticNat kinds root side
    mapping.rule
  have apart := fun probe => @subtree_deleteStaticNat_of_diverges kinds root
    mapping.rule probe
  generalize final : executeAll kinds (deleteStaticNat mapping.rule) root =
    after at *
  have conforms : Conforms kinds after := by
    rw [← final]
    exact (rendered .source).conforms.executeAll
  have perm : ∀ side, (parseRules (natConfig after) side).Perm
      ((parseRules (natConfig root) side).filter
        (·.rule ∉ [mapping.rule])) := by
    intro side
    refine parseRules_gone schema (rendered side) conforms ?_ ?_
    · intro number one
      rw [List.mem_singleton.mp one]
      exact gone side
    · intro key outside
      refine apart _ fun other => ?_
      by_cases same : other = side
      · subst same
        exact diverges_of_not_mem outside (List.mem_singleton_self _)
      · exact diverges_section same _ _
  have distinct := fun side => nodup_rule_parseRules schema (rendered side)
  have distinct' : ∀ side,
      ((parseRules (natConfig after) side).map NatRule.rule).Nodup := by
    intro side
    rw [((perm side).map _).nodup_iff]
    exact (distinct side).sublist (List.filter_sublist.map _)
  have mappings : (fetchNat44 after).staticNat.Perm
      ((fetchNat44 root).staticNat.filter (·.rule ∉ [mapping.rule])) :=
    staticNat_gone (distinct .source) (distinct' .source)
      (distinct .destination) (distinct' .destination) (perm .source)
      (perm .destination)
  have others : ∀ number ∉ [mapping.rule],
      (number ∈ (fetchNat44 after).staticNat.map StaticNatMapping.rule ↔
        number ∈ (fetchNat44 root).staticNat.map StaticNatMapping.rule) := by
    intro number elsewhere
    rw [(mappings.map StaticNatMapping.rule).mem_iff, List.mem_map,
      List.mem_map]
    simp only [List.mem_filter, decide_eq_true_eq]
    exact exists_congr fun other => ⟨fun ⟨⟨one, _⟩, same⟩ => ⟨one, same⟩,
      fun ⟨one, same⟩ => ⟨⟨one, same ▸ elsewhere⟩, same⟩⟩
  have outside : ∀ row : NatRule,
      row.rule ∉ (fetchNat44 root).staticNat.map StaticNatMapping.rule →
        row.rule ∉ [mapping.rule] := by
    intro row unpaired same
    rw [List.mem_singleton.mp same] at unpaired
    exact unpaired (List.mem_map_of_mem member)
  refine ⟨gone, by simpa using mappings, fun side => ?_, apart⟩
  have none_fresh : ∀ row ∈ ([] : List NatRule), row.rule ∈
      (fetchNat44 after).staticNat.map StaticNatMapping.rule := by simp
  cases side with
  | source =>
      exact plain_perm (perm .source) none_fresh others fun row _ => outside row
  | destination =>
      exact plain_perm (perm .destination) none_fresh others
        fun row _ => outside row

end Applying

/-! ## All of it -/

section Whole

variable {kinds : Kinds String} {root : Cfg} {number : String → Option Nat}

theorem submitStatic_untouched (reads : ∀ num, number (toString num) = some num)
    {mapping : StaticNatMapping} {existing : List StaticNatMapping}
    {takenRules : List Nat} {u : StaticNatUpdate}
    (submits : submitStatic number (some mapping) existing takenRules
      (initialStatic (some mapping)) = .ok u) :
    u = untouchedStatic mapping := by
  obtain ⟨num, form, _, _, _, _, rfl⟩ := submitStatic_ok_iff.mp submits
  have same : some mapping.rule = some num := (reads mapping.rule).symm.trans form
  cases same
  rfl

end Whole

/-! ## A pair that matches a port -/

/-- A pair of which the destination half forwards one port alone. -/
def portPair : Cfg :=
  .node [("nat", .node
    [("destination", .node [("rule", .node [("10", .node
      [("destination", .node
          [("address", .value "192.0.2.1"), ("port", .value "443")]),
        ("protocol", .value "tcp"),
        ("translation", .node [("address", .value "10.0.0.5")])])])]),
      ("source", .node [("rule", .node [("10", .node
        [("source", .node [("address", .value "10.0.0.5")]),
          ("translation", .node [("address", .value "192.0.2.1")])])])])])]

def portMapping : StaticNatMapping :=
  { rule := 10
    description := none
    interface := none
    internalAddress := "10.0.0.5"
    externalAddress := "192.0.2.1"
    enabled := true }

end QuartzFire.Nat44
