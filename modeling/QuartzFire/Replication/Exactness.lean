import QuartzFire.Replication.Criteria

/-!
# Exactly the packets of the rule

A replicated match holds of the packets its reading of the rule accepts.  So it
is exact if and only if that reading and the rule's criteria agree.
-/

namespace QuartzFire.Replication

open Nft

variable {conf : ConfigRead}

/-! ## Groups of a configuration -/

theorem lookup_map_pair {Value : Type} (names : List String)
    (value : String → Value) (name : String) :
    (names.map fun name => (name, value name)).lookup name =
      if name ∈ names then some (value name) else none := by
  induction names with
  | nil => rfl
  | cons first rest ih =>
      rw [List.map_cons, List.lookup_cons]
      by_cases same : name = first
      · simp [same]
      · rw [beq_false_of_ne same, ih]
        simp [same]

theorem find_readGroups {gtype name : String} {group : Group}
    (found : (readGroups conf).find gtype name = some group) :
    group = readGroup conf gtype name := by
  unfold Groups.find Groups.ofType readGroups at found
  rw [lookup_map_pair] at found
  split at found
  · rw [Option.getD_some] at found
    split at found
    · rw [lookup_map_pair] at found
      split at found
      · exact (Option.some.inj found).symm
      · cases found
    · cases found
  · cases found

theorem values_readGroup {gtype leaf : String} (name : String)
    (known : leaf ∈ groupLeaves gtype) :
    (readGroup conf gtype name).values leaf =
      conf.returnValues (groupPath gtype name leaf) := by
  unfold Group.values readGroup
  rw [lookup_map_pair, if_pos known]
  rfl

theorem values_find {gtype name leaf : String} {group : Group}
    (found : (readGroups conf).find gtype name = some group)
    (known : leaf ∈ groupLeaves gtype) :
    group.values leaf = conf.returnValues (groupPath gtype name leaf) := by
  rw [find_readGroups found, values_readGroup name known]

/-- The members of one leaf, where the group need not exist. -/
theorem mem_values_find {gtype name leaf member : String}
    (known : leaf ∈ groupLeaves gtype)
    (listed : ((((readGroups conf).find gtype name).map fun group =>
      group.values leaf).getD []) ≠ []) :
    member ∈ (((readGroups conf).find gtype name).map fun group =>
        group.values leaf).getD [] ↔
      member ∈ conf.returnValues (groupPath gtype name leaf) := by
  cases found : (readGroups conf).find gtype name with
  | none => simp [found] at listed
  | some group => simp [values_find found known]

section Members

variable {gtype leaf : String}

theorem items_groupDirectory {name : String} {own : List String}
    (leaf_eq : memberLeaf gtype = some leaf) (known : leaf ∈ groupLeaves gtype)
    (there : (groupDirectory (readGroups conf) gtype).items name = .ok own) :
    own = conf.returnValues (groupPath gtype name leaf) ∧
      ∃ group, (readGroups conf).find gtype name = some group := by
  unfold groupDirectory at there
  cases found : (readGroups conf).find gtype name with
  | none => simp [found] at there
  | some group =>
      simp only [found, leaf_eq, Option.getD_some, Except.ok.injEq] at there
      exact ⟨there.symm.trans (values_find found known), group, rfl⟩

theorem refers_groupDirectory {name : String} {group : Group}
    (included : "include" ∈ groupLeaves gtype)
    (found : (readGroups conf).find gtype name = some group) :
    (groupDirectory (readGroups conf) gtype).refers name =
      conf.returnValues (groupPath gtype name "include") := by
  simp only [groupDirectory, found]
  exact values_find found included

theorem mem_groupMembers {name : String} {members : List String}
    (leaf_eq : memberLeaf gtype = some leaf) (known : leaf ∈ groupLeaves gtype)
    (included : "include" ∈ groupLeaves gtype)
    (resolved : groupMembers (readGroups conf) gtype name = .ok members)
    (member : String) :
    member ∈ members ↔ InGroup conf gtype leaf name member := by
  obtain ⟨result, walked, same⟩ := bind_eq_ok.mp resolved
  cases same
  have covers : ∀ node own,
      (groupDirectory (readGroups conf) gtype).items node = .ok own →
        node ∈ ((readGroups conf).ofType gtype).map Prod.fst := by
    intro node own there
    obtain ⟨_, group, found⟩ := items_groupDirectory leaf_eq known there
    obtain ⟨front, back, entries, _⟩ := List.lookup_eq_some_iff.mp found
    simp [entries]
  have enough : (((readGroups conf).ofType gtype).map Prod.fst).length ≤
      ((readGroups conf).ofType gtype).length := by simp
  have along : ∀ node, (groupDirectory (readGroups conf) gtype).Reaches name
      node ↔ Relation.ReflTransGen (fun group next =>
        next ∈ conf.returnValues (groupPath gtype group "include"))
        name node := by
    intro node
    constructor
    · intro path
      induction path with
      | refl => exact .refl
      | tail path refers ih =>
          obtain ⟨own, there⟩ := Directory.present_of_gather covers enough
            walked path
          obtain ⟨_, group, found⟩ := items_groupDirectory leaf_eq known there
          rw [refers_groupDirectory included found] at refers
          exact ih.tail refers
    · intro path
      induction path with
      | refl => exact .refl
      | tail path refers ih =>
          obtain ⟨own, there⟩ := Directory.present_of_gather covers enough
            walked ih
          obtain ⟨_, group, found⟩ := items_groupDirectory leaf_eq known there
          rw [← refers_groupDirectory included found] at refers
          exact ih.tail refers
  rw [Directory.mem_gather covers enough walked]
  constructor
  · rintro ⟨node, path, own, there, listed⟩
    obtain ⟨own_eq, _⟩ := items_groupDirectory leaf_eq known there
    exact ⟨node, (along node).mp path, own_eq ▸ listed⟩
  · rintro ⟨node, path, listed⟩
    have reached := (along node).mpr path
    obtain ⟨own, there⟩ := Directory.present_of_gather covers enough walked
      reached
    obtain ⟨own_eq, _⟩ := items_groupDirectory leaf_eq known there
    exact ⟨node, reached, own, there, own_eq ▸ listed⟩

end Members

/-! ## Part by part -/

section Parts

variable {Addr Rest : Type} {means : RuleMeaning Addr Rest}
  {packet : Packet Addr Rest}

theorem holds_set {key : Key} (texts : List String)
    (applies : key.applies packet = true) :
    Match.holds means.toDenotation packet [⟨key, .set texts⟩] = true ↔
      ∃ text ∈ texts, key.reads means.toDenotation packet text = true := by
  simp [Statement.holds, applies]

theorem holds_one {key : Key} (text : String)
    (applies : key.applies packet = true) :
    Match.holds means.toDenotation packet [⟨key, .one text⟩] = true ↔
      key.reads means.toDenotation packet text = true := by
  simp [Statement.holds, applies]

theorem holds_addressOperand {key : Key} (text : String)
    (applies : key.applies packet = true) :
    Match.holds means.toDenotation packet [⟨key, addressOperand text⟩] = true ↔
      unlessNegated text fun text =>
        key.reads means.toDenotation packet text = true := by
  by_cases negated : ∃ rest, text.toList = '!' :: rest
  · obtain ⟨rest, negated⟩ := negated
    simp [addressOperand, unlessNegated, negated, Statement.holds, applies]
  · have plain : ∀ rest, text.toList ≠ '!' :: rest :=
      not_exists.mp negated
    have operand : addressOperand text = .one text := by
      unfold addressOperand
      split
      · exact absurd ‹_› (plain _)
      · rfl
    have criterion : ∀ tells : String → Prop,
        unlessNegated text tells = tells text := by
      intro tells
      unfold unlessNegated
      split
      · exact absurd ‹_› (plain _)
      · rfl
    rw [operand, criterion]
    exact holds_one text applies

theorem optional_holds {key : Key} {base : List String} {node : String}
    {parts : Match} (applies : key.applies packet = true)
    (built : optional (fun spec => ifaceExpr key spec (readGroups conf))
      (readIface conf base node) = .ok parts) :
    Match.holds means.toDenotation packet parts = true ↔
      interfaceReading conf (conf.returnValue (base ++ [node, "name"]))
        (conf.returnValue (base ++ [node, "group"]))
        fun text => key.reads means.toDenotation packet text = true := by
  unfold readIface at built
  cases name : conf.returnValue (base ++ [node, "name"]) with
  | some text =>
      simp only [name, optional, ifaceExpr, ne_eq, not_true_eq_false, if_false,
        Except.ok.injEq] at built
      subst built
      rw [holds_one text applies]
      rfl
  | none =>
      cases group : conf.returnValue (base ++ [node, "group"]) with
      | none =>
          simp only [name, group, Option.map_none, optional,
            Except.ok.injEq] at built
          subst built
          simp [interfaceReading]
      | some group =>
          simp only [name, group, Option.map_some, optional, ifaceExpr, ne_eq,
            not_true_eq_false, if_false, Option.getD_some] at built
          split at built
          · cases built
          · rename_i listed
            cases built
            rw [holds_set _ applies]
            simp only [interfaceReading]
            constructor
            · rintro ⟨text, member, reads⟩
              exact ⟨text, (mem_values_find (by decide) listed).mp member,
                reads⟩
            · rintro ⟨text, member, reads⟩
              exact ⟨text, (mem_values_find (by decide) listed).mpr member,
                reads⟩

/-- A resolved group of addresses. -/
theorem holds_groupMembers {gtype leaf name : String} {members : List String}
    {key : Key} (leaf_eq : memberLeaf gtype = some leaf)
    (known : leaf ∈ groupLeaves gtype) (included : "include" ∈ groupLeaves gtype)
    (applies : key.applies packet = true)
    (resolved : groupMembers (readGroups conf) gtype name = .ok members) :
    Match.holds means.toDenotation packet [⟨key, .set members⟩] = true ↔
      ∃ member, InGroup conf gtype leaf name member ∧
        key.reads means.toDenotation packet member = true := by
  rw [holds_set _ applies]
  exact exists_congr fun member => and_congr_left fun _ =>
    mem_groupMembers leaf_eq known included resolved member

theorem addrExpr_holds {feature : String} {key : Key} {base : List String}
    {node : String} {side : Side} {address : Addr} {parts : Match}
    (applies : key.applies packet = true)
    (reads : ∀ text, key.reads means.toDenotation packet text =
      means.address text address)
    (group_type : side.groupType = (readSide conf base node).groupType)
    (group_name : side.groupName = (readSide conf base node).groupName)
    (literal : side.address = (readSide conf base node).address)
    (built : addrExpr feature key side (readGroups conf) = .ok parts) :
    Match.holds means.toDenotation packet parts = true ↔
      addressReading means conf (sideCriteria conf base node) address := by
  unfold addrExpr at built
  rw [group_type, group_name, literal] at built
  simp only [readSide, readSideGroup] at built
  cases first : conf.returnValue (base ++ [node, "group", "address-group"]) with
  | some name =>
      simp only [first, Option.map_some, Option.some.injEq, reduceIte,
        String.reduceEq, memberLeaf, Option.isSome_some] at built
      obtain ⟨members, resolved, built⟩ := bind_eq_ok.mp built
      split at built
      · cases built
      · cases built
        have leaf_eq : memberLeaf "address-group" = some "address" := rfl
        rw [holds_groupMembers leaf_eq (by decide) (by decide) applies resolved]
        simp [addressReading, sideCriteria, first, reads]
  | none =>
      cases second : conf.returnValue
          (base ++ [node, "group", "network-group"]) with
      | some name =>
          simp only [first, second, Option.map_some, Option.some.injEq,
            reduceIte, String.reduceEq, memberLeaf,
            Option.isSome_some] at built
          obtain ⟨members, resolved, built⟩ := bind_eq_ok.mp built
          split at built
          · cases built
          · cases built
            have leaf_eq : memberLeaf "network-group" = some "network" := rfl
            rw [holds_groupMembers leaf_eq (by decide) (by decide) applies
              resolved]
            simp [addressReading, sideCriteria, first, second, reads]
      | none =>
          cases third : conf.returnValue
              (base ++ [node, "group", "domain-group"]) with
          | some name => simp [first, second, third] at built
          | none =>
              simp only [first, second, third, Option.map_none,
                reduceCtorEq, reduceIte, Except.ok.injEq] at built
              subst built
              simp only [addressReading, sideCriteria, first, second]
              cases conf.returnValue (base ++ [node, "address"]) with
              | none => simp
              | some text =>
                  rw [holds_addressOperand text applies]
                  simp [reads]

theorem holds_tcpOrUdp :
    Match.holds means.toDenotation packet [⟨.l4proto, .set ["tcp", "udp"]⟩] =
        true ↔
      packet.transport.protocol = tcp ∨ packet.transport.protocol = udp := by
  rw [holds_set _ rfl]
  simp [Key.reads, means.protocol_tcp, means.protocol_udp]

theorem holds_ports {texts : List String} {key : Key}
    (port : key = .tcpDport ∨ key = .udpDport ∨ key = .thDport) :
    Match.holds means.toDenotation packet [⟨key, .set texts⟩] = true ↔
      key.applies packet = true ∧
        ∃ text ∈ texts, means.port text packet.transport.dport = true := by
  rcases port with rfl | rfl | rfl <;> simp [Statement.holds, Key.reads]

theorem portExpr_holds {rule : RuleCfg} {parts : Match}
    (built : portExpr rule (readGroups conf) = .ok parts) :
    Match.holds means.toDenotation packet parts = true ↔
      transportReading means conf rule.protocol rule.destination.portGroup
        packet.transport := by
  unfold portExpr at built
  unfold transportReading
  cases named : rule.destination.portGroup with
  | some group =>
      simp only [named] at built
      split at built
      · cases built
      · rename_i listed
        have ports : ∀ text,
            text ∈ (((readGroups conf).find "port-group" group).map fun group =>
              group.values "port").getD [] ↔
            text ∈ conf.returnValues (groupPath "port-group" group "port") :=
          fun text => mem_values_find (by decide) listed
        split at built
        · rename_i only
          cases built
          rw [holds_ports (.inl rfl)]
          simp [only, Key.applies, ports]
        · rename_i other
          split at built
          · rename_i only
            cases built
            rw [holds_ports (.inr (.inl rfl))]
            simp [only, Key.applies, ports]
          · rename_i another
            cases built
            rw [← List.singleton_append, holds_append, Bool.and_eq_true,
              holds_tcpOrUdp, holds_ports (.inr (.inr rfl))]
            simp [other, another, Key.applies, ports]
  | none =>
      simp only [named] at built
      cases protocol : trimmed rule.protocol with
      | none =>
          simp only [protocol, Except.ok.injEq] at built
          subst built
          simp
      | some text =>
          simp only [protocol] at built
          simp only [Option.mem_some_iff, forall_eq', protocolTells]
          split at built
          · rename_i all
            cases built
            simp [all]
          · rename_i some_only
            split at built
            · rename_i both
              cases built
              rw [holds_tcpOrUdp]
              simp [both]
            · rename_i neither
              cases built
              rw [holds_one text rfl]
              simp [some_only, neither, Key.reads]

variable (means) in
/-- Whatever interfaces it was given, the rest of a rule is read alike. -/
theorem matchExpr_parts {feature : String} {base : List String}
    {rule cfg : RuleCfg} {parts : Match}
    (read : readRuleAt conf base = some cfg)
    (source_eq : rule.source = cfg.source)
    (destination_eq : rule.destination = cfg.destination)
    (protocol_eq : rule.protocol = cfg.protocol)
    (built : matchExpr feature rule (readGroups conf) = .ok parts) :
    ∃ inbound outbound,
      optional (fun spec => ifaceExpr .iifname spec (readGroups conf))
        rule.inboundInterface = .ok inbound ∧
      optional (fun spec => ifaceExpr .oifname spec (readGroups conf))
        rule.outboundInterface = .ok outbound ∧
      ∀ packet : Packet Addr Rest,
        Match.holds means.toDenotation packet parts = true ↔
          Match.holds means.toDenotation packet inbound = true ∧
          Match.holds means.toDenotation packet outbound = true ∧
          (reading means conf base).source packet.source ∧
          (reading means conf base).destination packet.destination ∧
          (reading means conf base).transport packet.transport := by
  obtain ⟨_, same⟩ := Option.ite_none_right_eq_some.mp read
  cases same
  obtain ⟨inbound, inbound_ok, built⟩ := bind_eq_ok.mp built
  obtain ⟨outbound, outbound_ok, built⟩ := bind_eq_ok.mp built
  obtain ⟨source, source_ok, built⟩ := bind_eq_ok.mp built
  obtain ⟨destination, destination_ok, built⟩ := bind_eq_ok.mp built
  obtain ⟨ports, ports_ok, built⟩ := bind_eq_ok.mp built
  cases built
  refine ⟨inbound, outbound, inbound_ok, outbound_ok, fun packet => ?_⟩
  simp only [holds_append, Bool.and_eq_true]
  rw [source_eq] at source_ok
  rw [destination_eq] at destination_ok
  rw [addrExpr_holds rfl (fun _ => rfl) rfl rfl rfl source_ok,
    addrExpr_holds rfl (fun _ => rfl) rfl rfl rfl destination_ok,
    portExpr_holds ports_ok, protocol_eq, destination_eq]
  rfl

theorem any_interface (iface : Option String) (text : String) :
    iface.any (means.interface text) = true ↔ ifaceTells means iface text := by
  cases iface <;> simp [ifaceTells]

/-- The reading of the whole rule. -/
theorem matchExpr_holds {feature : String} {base : List String}
    {rule : RuleCfg} {parts : Match}
    (read : readRuleAt conf base = some rule)
    (built : matchExpr feature rule (readGroups conf) = .ok parts) :
    Match.holds means.toDenotation packet parts = true ↔
      (reading means conf base).Accepts packet := by
  obtain ⟨inbound, outbound, inbound_ok, outbound_ok, holds⟩ :=
    matchExpr_parts means read rfl rfl rfl built
  obtain ⟨_, same⟩ := Option.ite_none_right_eq_some.mp read
  cases same
  rw [holds, optional_holds rfl inbound_ok, optional_holds rfl outbound_ok]
  simp only [Key.reads, any_interface]
  constructor
  · rintro ⟨inbound, outbound, source, destination, transport⟩
    exact ⟨inbound, outbound, source, destination, transport, trivial, trivial⟩
  · intro accepts
    exact ⟨accepts.inbound, accepts.outbound, accepts.source,
      accepts.destination, accepts.transport⟩

end Parts

/-! ## Rules that are replicated exactly -/

theorem unlessNegated_plain {text : String} {tells : String → Prop}
    (plain : text.toList.head? ≠ some '!') :
    unlessNegated text tells ↔ tells text := by
  unfold unlessNegated
  split
  · rename_i rest negated
    simp [negated] at plain
  · exact Iff.rfl

/-- No group is included. -/
def Flat (conf : ConfigRead) (gtype name : String) : Prop :=
  conf.returnValues (groupPath gtype name "include") = []

theorem inGroup_flat {gtype leaf name member : String}
    (flat : Flat conf gtype name) :
    InGroup conf gtype leaf name member ↔
      member ∈ conf.returnValues (groupPath gtype name leaf) := by
  constructor
  · rintro ⟨node, path, listed⟩
    cases path using Relation.ReflTransGen.head_induction_on with
    | refl => exact listed
    | head next _ _ =>
        rw [flat] at next
        cases next
  · intro listed
    exact ⟨name, .refl, listed⟩

/-- A name or a flat group, not both, and not negated. -/
structure PlainInterface (conf : ConfigRead) (name group : Option String) :
    Prop where
  name_plain : ∀ text ∈ name, text.toList.head? ≠ some '!'
  alone : name.isSome = true → group = none
  group_plain : ∀ text ∈ group, text.toList.head? ≠ some '!'
  group_flat : ∀ text ∈ group, Flat conf "interface-group" text

theorem PlainInterface.reading {name group : Option String}
    (plain : PlainInterface conf name group) (tells : String → Prop) :
    interfaceReading conf name group tells ↔
      interfaceCriteria conf name group tells := by
  unfold interfaceReading interfaceCriteria groupCriterion
  cases name with
  | some text =>
      simp [plain.alone rfl, unlessNegated_plain (plain.name_plain text rfl)]
  | none =>
      cases group with
      | none => simp
      | some group =>
          simp [unlessNegated_plain (plain.group_plain group rfl),
            inGroup_flat (plain.group_flat group rfl)]

/-- An address, an address group or a network group. -/
structure PlainSide (side : SideCriteria) : Prop where
  address_alone : side.address.isSome = true →
    side.addressGroup = none ∧ side.networkGroup = none
  group_alone : side.addressGroup.isSome = true → side.networkGroup = none
  groups_plain : ∀ text, text ∈ side.addressGroup ∨ text ∈ side.networkGroup →
    text.toList.head? ≠ some '!'
  domain : side.domainGroup = none

theorem PlainSide.reading {Addr Rest : Type} {means : RuleMeaning Addr Rest}
    {side : SideCriteria} (plain : PlainSide side) (address : Addr) :
    addressReading means conf side address ↔
      addressCriteria means conf side address := by
  unfold addressReading addressCriteria groupCriterion
  have address_alone := plain.address_alone
  have group_alone := plain.group_alone
  have groups_plain := plain.groups_plain
  simp only [plain.domain]
  cases first : side.addressGroup with
  | some group =>
      have apart : side.address = none := by
        by_contra present
        have lone := address_alone (Option.isSome_iff_ne_none.mpr present)
        simp [first] at lone
      simp [apart, group_alone (by simp [first]),
        unlessNegated_plain (groups_plain group (.inl first))]
  | none =>
      cases second : side.networkGroup with
      | some group =>
          have apart : side.address = none := by
            by_contra present
            have lone := address_alone (Option.isSome_iff_ne_none.mpr present)
            simp [second] at lone
          simp [apart, unlessNegated_plain (groups_plain group (.inr second))]
      | none => simp

/-- No ports but those of a flat group for TCP, UDP or both, and a protocol
that is not negated. -/
structure PlainTransport (conf : ConfigRead) (rule : RuleCriteria) : Prop where
  flags : rule.tcpFlags = [] ∧ rule.tcpFlagsNot = []
  ports : rule.source.port = none ∧ rule.destination.port = none
  source_group : rule.source.portGroup = none
  protocol_plain : ∀ text ∈ rule.protocol, text.toList.head? ≠ some '!'
  protocol_trimmed : trimmed rule.protocol = rule.protocol
  group_plain : ∀ text ∈ rule.destination.portGroup,
    text.toList.head? ≠ some '!' ∧ Flat conf "port-group" text
  group_protocol : rule.destination.portGroup.isSome = true →
    ∃ protocol ∈ ["tcp", "udp", "tcp_udp"], rule.protocol = some protocol

theorem PlainTransport.reading {Addr Rest : Type}
    {means : RuleMeaning Addr Rest} {rule : RuleCriteria}
    (plain : PlainTransport conf rule) (header : Transport) :
    transportReading means conf rule.protocol rule.destination.portGroup
        header ↔
      transportCriteria means conf rule header := by
  unfold transportReading transportCriteria portCriteria groupCriterion
  simp only [plain.flags.1, plain.flags.2, plain.ports.1, plain.ports.2,
    plain.source_group, plain.protocol_trimmed]
  have protocols : (∀ text ∈ rule.protocol,
      unlessNegated text (protocolTells means header.protocol)) ↔
        ∀ text ∈ rule.protocol, protocolTells means header.protocol text :=
    forall₂_congr fun text member =>
      unlessNegated_plain (plain.protocol_plain text member)
  rw [protocols]
  cases named : rule.destination.portGroup with
  | none => simp
  | some group =>
      obtain ⟨unnegated, flat⟩ := plain.group_plain group named
      obtain ⟨protocol, listed, chosen⟩ :=
        plain.group_protocol (by simp [named])
      simp only [List.mem_cons, List.not_mem_nil, or_false] at listed
      rcases listed with rfl | rfl | rfl <;>
        simp [chosen, unlessNegated_plain unnegated, inGroup_flat flat,
          protocolTells, means.protocol_tcp, means.protocol_udp]

/-- Only criteria that both replications read, none of them negated but a
literal address. -/
structure PlainRule (conf : ConfigRead) (rule : RuleCriteria) : Prop where
  enabled : rule.disabled = false
  states : rule.states = []
  inbound : PlainInterface conf rule.inboundName rule.inboundGroup
  outbound : PlainInterface conf rule.outboundName rule.outboundGroup
  source : PlainSide rule.source
  destination : PlainSide rule.destination
  transport : PlainTransport conf rule

theorem PlainRule.agrees {Addr Rest : Type} {means : RuleMeaning Addr Rest}
    {base : List String} (plain : PlainRule conf (ruleCriteria conf base))
    (further : ∀ rest, means.further conf base rest = true) :
    (reading means conf base).Agrees (criteria means conf base) := by
  have rest : ∀ rest, (ruleCriteria conf base).disabled = false ∧
      means.further conf base rest = true :=
    fun rest => ⟨plain.enabled, further rest⟩
  constructor
  · exact {
      inbound := fun _ => (plain.inbound.reading _).mp
      outbound := fun _ => (plain.outbound.reading _).mp
      source := fun address => (plain.source.reading address).mp
      destination := fun address => (plain.destination.reading address).mp
      transport := fun header => (plain.transport.reading header).mp
      state := fun _ _ => .inl plain.states
      rest := fun other _ => rest other }
  · exact {
      inbound := fun _ => (plain.inbound.reading _).mpr
      outbound := fun _ => (plain.outbound.reading _).mpr
      source := fun address => (plain.source.reading address).mpr
      destination := fun address => (plain.destination.reading address).mpr
      transport := fun header => (plain.transport.reading header).mpr
      state := fun _ _ => trivial
      rest := fun _ _ => trivial }

section Claims

variable {Addr Rest : Type}

/-- The match holds of a packet if and only if it meets every criterion of the
rule. -/
def Exact (means : RuleMeaning Addr Rest) (conf : ConfigRead)
    (base : List String) (expr : Match) : Prop :=
  ∀ packet : Packet Addr Rest,
    Match.holds means.toDenotation packet expr = true ↔
      (criteria means conf base).Accepts packet

/-- Part by part, what is read of the rule asks the same as all its criteria;
or no packet meets either. -/
def Replicable (means : RuleMeaning Addr Rest) (conf : ConfigRead)
    (base : List String) : Prop :=
  (reading means conf base).Agrees (criteria means conf base) ∨
    (reading means conf base).Unmet ∧ (criteria means conf base).Unmet

theorem exact_iff_of_matchExpr {means : RuleMeaning Addr Rest}
    {feature : String} {base : List String} {rule : RuleCfg} {expr : Match}
    (read : readRuleAt conf base = some rule)
    (built : matchExpr feature rule (readGroups conf) = .ok expr) :
    Exact means conf base expr ↔ Replicable means conf base := by
  unfold Replicable
  rw [← Requirement.accepts_iff_iff]
  exact forall_congr' fun packet => iff_congr (matchExpr_holds read built) .rfl

end Claims

/-! ## Two rules -/

section Examples

def plainMeaning : RuleMeaning String Unit where
  toDenotation := plainDenotation
  ports := fun text port => text = toString port
  domain := fun _ _ => false
  further := fun _ _ _ => true

def forwardRules (rules : List (String × ConfigTree String)) : ConfigRead :=
  .ofTree (.node [("firewall", .node [("ipv4", .node [("forward", .node
    [("filter", .node [("rule", .node rules)])])])])])

/-- Rule 10 names a source and a protocol; rule 20 also a port. -/
def twoRules : ConfigRead :=
  forwardRules [
    ("10", .node [
      ("protocol", .value "tcp"),
      ("source", .node [("address", .value "!10.0.0.1")])]),
    ("20", .node [
      ("protocol", .value "tcp"),
      ("destination", .node [("port", .value "22")])])]

end Examples

end QuartzFire.Replication
