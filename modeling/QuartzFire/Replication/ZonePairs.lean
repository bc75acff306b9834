import QuartzFire.Replication.Exactness
import QuartzFire.Replication.Geolocation

/-!
# Matches of zone rules

A zone rule is replicated with the members of its two zones in place of the
interfaces it does not name.  The match stays between the zones where there are
members to put there, or where the rule's own interfaces are members.
-/

namespace QuartzFire.Geolocation

open Replication Nft

variable {Addr Rest : Type} {means : RuleMeaning Addr Rest} {conf : ConfigRead}

/-! ## Between two zones -/

/-- Packets with an input, or an output, interface pass the hook. -/
structure AtHook (hook : String) (packet : Packet Addr Rest) : Prop where
  inbound : packet.inbound.isSome = true ↔ hook ≠ "geo_output"
  outbound : packet.outbound.isSome = true ↔ hook ≠ "geo_input"

def InZone (means : RuleMeaning Addr Rest) (members : List String)
    (iface : Option String) : Prop :=
  ∃ text ∈ members, ifaceTells means iface text

/-- The packet comes from the one zone and goes to the other, or is local
traffic. -/
structure Between (means : RuleMeaning Addr Rest) (pair : ZonePairCfg)
    (packet : Packet Addr Rest) : Prop where
  source : if pair.srcLocal then packet.inbound = none
    else InZone means pair.srcInterfaces packet.inbound
  destination : if pair.dstLocal then packet.outbound = none
    else InZone means pair.dstInterfaces packet.outbound

/-! ## What a zone rule's match reads -/

/-- The members of the zone, if there are any and the rule names nothing. -/
def endReading (conf : ConfigRead) (members : List String)
    (name group : Option String) (tells : String → Prop) : Prop :=
  if members ≠ [] ∧ name = none ∧ group = none then
    ∃ text ∈ members, tells text
  else interfaceReading conf name group tells

def pairReading (means : RuleMeaning Addr Rest) (conf : ConfigRead)
    (base : List String) (pair : ZonePairCfg) : Requirement Addr Rest :=
  let rule := ruleCriteria conf base
  { reading means conf base with
    inbound := fun iface =>
      endReading conf pair.srcInterfaces rule.inboundName rule.inboundGroup
        (ifaceTells means iface)
    outbound := fun iface =>
      endReading conf pair.dstInterfaces rule.outboundName rule.outboundGroup
        (ifaceTells means iface) }

/-- Members of the zone are put in, or what the rule itself names are
members. -/
def EndConfined (means : RuleMeaning Addr Rest) (conf : ConfigRead)
    (members : List String) (name group : Option String) : Prop :=
  (members ≠ [] ∧ name = none ∧ group = none) ∨
    ∀ iface, interfaceReading conf name group (ifaceTells means (some iface)) →
      InZone means members (some iface)

/-- Both ends are confined, a local one by the hook; or what the rule asks is
met by no packet there. -/
def Confined (means : RuleMeaning Addr Rest) (conf : ConfigRead)
    (base : List String) (hook : String) (pair : ZonePairCfg) : Prop :=
  let rule := ruleCriteria conf base
  ((if pair.srcLocal then pair.dstLocal = false
      else EndConfined means conf pair.srcInterfaces rule.inboundName
        rule.inboundGroup) ∧
    (pair.dstLocal = true ∨
      EndConfined means conf pair.dstInterfaces rule.outboundName
        rule.outboundGroup)) ∨
  ∀ packet, AtHook hook packet →
    ¬ (pairReading means conf base pair).Accepts packet

/-! ## Reading the match -/

theorem readIface_eq_none {base : List String} {node : String} :
    readIface conf base node = none ↔
      conf.returnValue (base ++ [node, "name"]) = none ∧
        conf.returnValue (base ++ [node, "group"]) = none := by
  unfold readIface
  cases conf.returnValue (base ++ [node, "name"]) <;> simp

theorem endReading_of_own {members : List String} {name group : Option String}
    {tells : String → Prop}
    (kept : ¬ (members ≠ [] ∧ name = none ∧ group = none))
    (reads : interfaceReading conf name group tells) :
    endReading conf members name group tells := by
  rw [endReading, if_neg kept]
  exact reads

theorem foldZone_holds {key : Key} {base : List String} {node : String}
    {members : List String} {parts : Match} {packet : Packet Addr Rest}
    (applies : key.applies packet = true)
    (built : optional (fun spec => ifaceExpr key spec (readGroups conf))
      (foldZone members (readIface conf base node)) = .ok parts) :
    Match.holds means.toDenotation packet parts = true ↔
      endReading conf members (conf.returnValue (base ++ [node, "name"]))
        (conf.returnValue (base ++ [node, "group"]))
        fun text => key.reads means.toDenotation packet text = true := by
  unfold endReading
  unfold foldZone at built
  split at built
  · rename_i folded
    rw [if_pos ⟨folded.1, readIface_eq_none.mp folded.2⟩]
    simp only [Replication.optional, ifaceExpr, if_pos folded.1,
      Except.ok.injEq] at built
    subst built
    exact holds_set members applies
  · rename_i kept
    rw [if_neg fun folded =>
      kept ⟨folded.1, readIface_eq_none.mpr folded.2⟩]
    exact optional_holds applies built

theorem zoneExpr_holds {base : List String} {rule : RuleCfg}
    {pair : ZonePairCfg} {expr : Match} (read : readRuleAt conf base = some rule)
    (built : ruleMatchExpr (applyZonePair rule pair) (readGroups conf) =
      .ok expr) (packet : Packet Addr Rest) :
    Match.holds means.toDenotation packet expr = true ↔
      (pairReading means conf base pair).Accepts packet := by
  have built : matchExpr "geolocation" (applyZonePair rule pair)
      (readGroups conf) = .ok expr := built
  have source_eq : (applyZonePair rule pair).source = rule.source := rfl
  have destination_eq :
      (applyZonePair rule pair).destination = rule.destination := rfl
  have protocol_eq : (applyZonePair rule pair).protocol = rule.protocol := rfl
  obtain ⟨inbound, outbound, inbound_ok, outbound_ok, holds⟩ :=
    matchExpr_parts means read source_eq destination_eq protocol_eq built
  obtain ⟨_, same⟩ := Option.ite_none_right_eq_some.mp read
  cases same
  rw [holds, foldZone_holds rfl inbound_ok, foldZone_holds rfl outbound_ok]
  simp only [Key.reads, any_interface]
  constructor
  · rintro ⟨inbound, outbound, source, destination, transport⟩
    exact ⟨inbound, outbound, source, destination, transport, trivial, trivial⟩
  · intro accepts
    exact ⟨accepts.inbound, accepts.outbound, accepts.source,
      accepts.destination, accepts.transport⟩

/-! ## Confinement -/

theorem InZone.isSome {members : List String} {iface : Option String}
    (inZone : InZone means members iface) : iface.isSome = true := by
  obtain ⟨text, _, name, present, _⟩ := inZone
  exact Option.isSome_of_mem present

/-- A confined end that is not local. -/
theorem EndConfined.inZone {members : List String} {name group : Option String}
    {iface : Option String} (confined : EndConfined means conf members name group)
    (present : iface.isSome = true)
    (accepted : endReading conf members name group (ifaceTells means iface)) :
    InZone means members iface := by
  obtain ⟨iface, rfl⟩ := Option.isSome_iff_exists.mp present
  unfold endReading at accepted
  split at accepted
  · exact accepted
  · rename_i kept
    exact confined.elim (fun folded => absurd folded kept)
      fun within => within iface accepted

theorem policyHook_ne_output {ruleset : String} {pair : ZonePairCfg} :
    policyHook ruleset (some pair) ≠ "geo_output" ↔
      pair.dstLocal = true ∨ pair.srcLocal = false := by
  cases first : pair.dstLocal <;> cases second : pair.srcLocal <;>
    simp [policyHook, first, second]

theorem policyHook_ne_input {ruleset : String} {pair : ZonePairCfg} :
    policyHook ruleset (some pair) ≠ "geo_input" ↔ pair.dstLocal = false := by
  cases first : pair.dstLocal <;> cases second : pair.srcLocal <;>
    simp [policyHook, first, second]

section Confinement

variable {base : List String} {ruleset : String} {pair : ZonePairCfg}

/-- A packet of the zone could have come in by any interface the rule's own
criterion names. -/
theorem source_confined_of_between {packet : Packet Addr Rest}
    (between : ∀ packet, AtHook (policyHook ruleset (some pair)) packet →
      (pairReading means conf base pair).Accepts packet →
        Between means pair packet)
    (hooked : AtHook (policyHook ruleset (some pair)) packet)
    (accepts : (pairReading means conf base pair).Accepts packet) :
    if pair.srcLocal then pair.dstLocal = false
      else EndConfined means conf pair.srcInterfaces
        (ruleCriteria conf base).inboundName
        (ruleCriteria conf base).inboundGroup := by
  have here := between packet hooked accepts
  cases local_source : pair.srcLocal with
  | true =>
      have outgoing : packet.inbound = none := by
        simpa [local_source] using here.source
      have hook := hooked.inbound
      rw [policyHook_ne_output, outgoing] at hook
      simpa [local_source] using hook
  | false =>
      have inZone : InZone means pair.srcInterfaces packet.inbound := by
        simpa [local_source] using here.source
      by_cases folded : pair.srcInterfaces ≠ [] ∧
          (ruleCriteria conf base).inboundName = none ∧
          (ruleCriteria conf base).inboundGroup = none
      · exact .inl folded
      · refine .inr fun iface reads => ?_
        have moved := between { packet with inbound := some iface }
          ⟨by simpa [inZone.isSome] using hooked.inbound, hooked.outbound⟩
          { accepts with inbound := endReading_of_own folded reads }
        simpa [local_source] using moved.source

theorem destination_confined_of_between {packet : Packet Addr Rest}
    (between : ∀ packet, AtHook (policyHook ruleset (some pair)) packet →
      (pairReading means conf base pair).Accepts packet →
        Between means pair packet)
    (hooked : AtHook (policyHook ruleset (some pair)) packet)
    (accepts : (pairReading means conf base pair).Accepts packet) :
    pair.dstLocal = true ∨
      EndConfined means conf pair.dstInterfaces
        (ruleCriteria conf base).outboundName
        (ruleCriteria conf base).outboundGroup := by
  have here := between packet hooked accepts
  cases local_destination : pair.dstLocal with
  | true => exact .inl rfl
  | false =>
      have inZone : InZone means pair.dstInterfaces packet.outbound := by
        simpa [local_destination] using here.destination
      right
      by_cases folded : pair.dstInterfaces ≠ [] ∧
          (ruleCriteria conf base).outboundName = none ∧
          (ruleCriteria conf base).outboundGroup = none
      · exact .inl folded
      · refine .inr fun iface reads => ?_
        have moved := between { packet with outbound := some iface }
          ⟨hooked.inbound, by simpa [inZone.isSome] using hooked.outbound⟩
          { accepts with outbound := endReading_of_own folded reads }
        simpa [local_destination] using moved.destination

theorem between_of_ends {packet : Packet Addr Rest}
    (source : if pair.srcLocal then pair.dstLocal = false
      else EndConfined means conf pair.srcInterfaces
        (ruleCriteria conf base).inboundName
        (ruleCriteria conf base).inboundGroup)
    (destination : pair.dstLocal = true ∨
      EndConfined means conf pair.dstInterfaces
        (ruleCriteria conf base).outboundName
        (ruleCriteria conf base).outboundGroup)
    (hooked : AtHook (policyHook ruleset (some pair)) packet)
    (accepts : (pairReading means conf base pair).Accepts packet) :
    Between means pair packet := by
  constructor
  · cases local_source : pair.srcLocal with
    | true =>
        have outward : pair.dstLocal = false := by
          simpa [local_source] using source
        have hook := hooked.inbound
        rw [policyHook_ne_output] at hook
        simpa [local_source, outward] using hook
    | false =>
        have confined : EndConfined means conf pair.srcInterfaces
            (ruleCriteria conf base).inboundName
            (ruleCriteria conf base).inboundGroup := by
          simpa [local_source] using source
        have present : packet.inbound.isSome = true :=
          hooked.inbound.mpr (policyHook_ne_output.mpr (.inr local_source))
        simpa using confined.inZone present accepts.inbound
  · cases local_destination : pair.dstLocal with
    | true =>
        have hook := hooked.outbound
        rw [policyHook_ne_input] at hook
        simpa [local_destination] using hook
    | false =>
        have confined : EndConfined means conf pair.dstInterfaces
            (ruleCriteria conf base).outboundName
            (ruleCriteria conf base).outboundGroup := by
          simpa [local_destination] using destination
        have present : packet.outbound.isSome = true :=
          hooked.outbound.mpr (policyHook_ne_input.mpr local_destination)
        simpa using confined.inZone present accepts.outbound

theorem between_iff_confined :
    (∀ packet, AtHook (policyHook ruleset (some pair)) packet →
      (pairReading means conf base pair).Accepts packet →
        Between means pair packet) ↔
      Confined means conf base (policyHook ruleset (some pair)) pair := by
  constructor
  · intro between
    by_cases met : ∃ packet, AtHook (policyHook ruleset (some pair)) packet ∧
        (pairReading means conf base pair).Accepts packet
    · obtain ⟨packet, hooked, accepts⟩ := met
      exact .inl ⟨source_confined_of_between between hooked accepts,
        destination_confined_of_between between hooked accepts⟩
    · exact .inr fun packet hooked accepts => met ⟨packet, hooked, accepts⟩
  · rintro (⟨source, destination⟩ | unmet) packet hooked accepts
    · exact between_of_ends source destination hooked accepts
    · exact absurd accepts (unmet packet hooked)

end Confinement

/-! ## Policies on zone rules -/

theorem resolvePolicy_zone {policy : Policy} {name : String}
    {pair : ZonePairCfg} {expr : Match}
    (zone : zoneRuleset (policy.ruleset.getD "forward") = some name)
    (bound : readZonePair conf name = some pair)
    (resolved : (resolvePolicy conf policy).result = .ok expr) :
    ∃ rule, readRuleCfg conf (policy.ruleset.getD "forward") policy.rule =
        some rule ∧
      ruleMatchExpr (applyZonePair rule pair) (readGroups conf) = .ok expr := by
  simp only [resolvePolicy, zone, Option.bind_some, bound] at resolved
  cases read : readRuleCfg conf (policy.ruleset.getD "forward")
      policy.rule with
  | none => simp [read] at resolved
  | some rule =>
      cases built : ruleMatchExpr (applyZonePair rule pair)
          (readGroups conf) with
      | error error => simp [read, built] at resolved
      | ok parts =>
          simp only [read, built, Except.ok.injEq] at resolved
          exact ⟨rule, rfl, built.trans (congrArg _ resolved)⟩

/-- Of the packets that pass the policy's hook, the match accepts only those
between the two zones. -/
def NeverWider (means : RuleMeaning Addr Rest) (ruleset : String)
    (pair : ZonePairCfg) (expr : Match) : Prop :=
  ∀ packet : Packet Addr Rest,
    AtHook (policyHook ruleset (some pair)) packet →
      Match.holds means.toDenotation packet expr = true →
        Between means pair packet

/-- The match of a policy on a zone rule is never wider than the pair if and
only if both ends of the rule are confined to it. -/
theorem neverWider_iff_confined (means : RuleMeaning Addr Rest)
    (conf : ConfigRead) (policy : Policy) {name : String} {pair : ZonePairCfg}
    {expr : Match}
    (zone : zoneRuleset (policy.ruleset.getD "forward") = some name)
    (bound : readZonePair conf name = some pair)
    (resolved : (resolvePolicy conf policy).result = .ok expr) :
    NeverWider means (policy.ruleset.getD "forward") pair expr ↔
      Confined means conf
        (rulePath (policy.ruleset.getD "forward") (toString policy.rule))
        (policyHook (policy.ruleset.getD "forward") (some pair)) pair := by
  obtain ⟨rule, read, built⟩ := resolvePolicy_zone zone bound resolved
  rw [← between_iff_confined]
  unfold NeverWider
  refine forall_congr' fun packet => imp_congr_right fun _ => ?_
  rw [zoneExpr_holds read built]

section Examples

/-- Rule 10 of the pair names no interface, rule 20 one of no zone. -/
def pairRules : ConfigRead :=
  .ofTree (.node [("firewall", .node [
    ("zone", .node [
      ("LAN", .node [("member", .node [("interface", .value "eth1")])]),
      ("WAN", .node [
        ("member", .node [("interface", .value "eth0")]),
        ("from", .node [("LAN", .node [
          ("firewall", .node [("name", .value "LAN-TO-WAN")])])])])]),
    ("ipv4", .node [("name", .node [("LAN-TO-WAN", .node [("rule", .node [
      ("10", .node [("protocol", .value "tcp")]),
      ("20", .node [
        ("inbound-interface", .node [("name", .value "eth9")])])])])])])])])

def policyOn (rule : Nat) : Policy :=
  ⟨1, some "block", some "name:LAN-TO-WAN", rule, "source", true⟩

def lanToWan : ZonePairCfg := ⟨["eth1"], ["eth0"], false, false⟩

theorem pairRules_neverWider :
    NeverWider plainMeaning "name:LAN-TO-WAN" lanToWan
      [⟨.iifname, .set ["eth1"]⟩, ⟨.oifname, .set ["eth0"]⟩,
        ⟨.l4proto, .one "tcp"⟩] := by
  refine (neverWider_iff_confined plainMeaning pairRules (policyOn 10)
    (by rfl) (by rfl) (by rfl)).mpr (.inl ⟨.inl ?_, .inr (.inl ?_)⟩)
  · exact ⟨by decide, by rfl, by rfl⟩
  · exact ⟨by decide, by rfl, by rfl⟩

/-- The rule's own interface takes the place of the source zone. -/
theorem own_interface_leaves_zone :
    ∃ expr, (resolvePolicy pairRules (policyOn 20)).result = .ok expr ∧
      readZonePair pairRules "LAN-TO-WAN" = some lanToWan ∧
      ¬ NeverWider plainMeaning "name:LAN-TO-WAN" lanToWan expr := by
  refine ⟨[⟨.iifname, .one "eth9"⟩, ⟨.oifname, .set ["eth0"]⟩], by rfl, by rfl,
    fun never => ?_⟩
  have between := never { httpPacket with inbound := some "eth9" }
    ⟨by decide, by decide⟩ (by decide)
  obtain ⟨text, member, iface, present, same⟩ := between.source
  cases List.mem_singleton.mp member
  cases present
  exact absurd same (by decide)

end Examples

end QuartzFire.Geolocation
