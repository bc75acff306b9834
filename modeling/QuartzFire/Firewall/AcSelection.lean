import QuartzFire.Foundation.Fallible
import QuartzFire.Firewall.RuleServices
import QuartzFire.Firewall.Placement
import QuartzFire.Firewall.Schema
import QuartzFire.AppControl.Nftgen

/-!
# What an Application Control binding selects

The match of a binding is a list of interfaces and a list of addresses for each
side.  A side of the rule itself asks for more: its zones, its interfaces and
its addresses each restrict it.
-/

namespace QuartzFire.Firewall

open Nft AppControl

/-! ## Matches in the policy file -/

def AcMatch.spec (matched : AcMatch) : MatchSpec :=
  ⟨matched.iifname, matched.oifname, matched.saddr, matched.daddr, []⟩

/-! ## What a selection asks for -/

namespace EndpointEntry

def zoneInterfaces (cfg : FirewallConfig) : EndpointEntry → List String
  | .zone name => ((cfg.zones.find? fun zone => zone.name = name).map
      FirewallZone.interfaces).getD []
  | _ => []

def members (cfg : FirewallConfig) (type : AliasType) (name : String) :
    List String :=
  ((cfg.aliases.find? fun known =>
    known.type = type && known.name = name).map FirewallAlias.members).getD []

def ownInterfaces (cfg : FirewallConfig) : EndpointEntry → List String
  | .interface name => [name]
  | .alias .iface name => members cfg .iface name
  | _ => []

def addresses (cfg : FirewallConfig) : EndpointEntry → List String
  | .alias .iface _ => []
  | .alias type name => members cfg type name
  | .inline _ value => [value]
  | .address text => [text]
  | _ => []

def namesInterface : EndpointEntry → Bool
  | .interface _ | .alias .iface _ => true
  | _ => false

def namesAddress : EndpointEntry → Bool
  | .alias .iface _ => false
  | .alias _ _ | .inline _ _ | .address _ => true
  | _ => false

end EndpointEntry

section Selections

variable (parseAddr : String → Option IpAddr) (cfg : FirewallConfig)

/-- A packet's interface and address are on a side of a rule. -/
structure OnSide (selection : EndpointSelection) (iface : String)
    (addr : IpAddr) : Prop where
  zone : selection.any EndpointEntry.isZone = true →
    iface ∈ selection.flatMap (EndpointEntry.zoneInterfaces cfg)
  interface : selection.any EndpointEntry.namesInterface = true →
    iface ∈ selection.flatMap (EndpointEntry.ownInterfaces cfg)
  address : selection.any EndpointEntry.namesAddress = true →
    ∃ text ∈ selection.flatMap (EndpointEntry.addresses cfg),
      (cidr parseAddr text).any fun range => range.contains addr

/-- Both sides of a rule select a packet. -/
def Selected (source target : EndpointSelection) (packet : Forwarded) : Prop :=
  OnSide parseAddr cfg source packet.iifname packet.addresses.source ∧
    OnSide parseAddr cfg target packet.oifname packet.addresses.destination

/-- The interfaces of a side can be listed: its zones have some, and are no
other than those of the interface entries beside them. -/
def Listable (selection : EndpointSelection) : Prop :=
  selection.any EndpointEntry.isZone = true →
    if selection.any EndpointEntry.namesInterface then
      ∀ iface, iface ∈ selection.flatMap (EndpointEntry.zoneInterfaces cfg) ↔
        iface ∈ selection.flatMap (EndpointEntry.ownInterfaces cfg)
    else selection.flatMap (EndpointEntry.zoneInterfaces cfg) ≠ []

end Selections

/-! ## What a side contributes -/

section Sides

variable {parseAddr : String → Option IpAddr} {cfg : FirewallConfig}
  {selection : EndpointSelection} {side : String}

/-- An entry that is accepted contributes what it stands for, and something if
it is an interface or an address entry. -/
theorem entryMatch_ok {entry : EndpointEntry}
    {part : List String × List String}
    (accepted : entryMatch cfg side entry = .ok part) :
    part = (entry.zoneInterfaces cfg ++ entry.ownInterfaces cfg,
        entry.addresses cfg) ∧
      (entry.namesInterface = true → entry.ownInterfaces cfg ≠ []) ∧
      (entry.namesAddress = true → entry.addresses cfg ≠ []) := by
  cases entry with
  | interface name | address text =>
      cases accepted
      simp [EndpointEntry.zoneInterfaces, EndpointEntry.ownInterfaces,
        EndpointEntry.addresses, EndpointEntry.namesInterface,
        EndpointEntry.namesAddress]
  | zone name =>
      rw [entryMatch] at accepted
      split at accepted
      · cases accepted
      · rename_i zone found
        split at accepted
        · cases accepted
        · cases accepted
          simp [EndpointEntry.zoneInterfaces, EndpointEntry.ownInterfaces,
            EndpointEntry.addresses, EndpointEntry.namesInterface,
            EndpointEntry.namesAddress, found]
  | «alias» type name =>
      rw [entryMatch] at accepted
      split at accepted
      · cases accepted
      · rename_i known found
        have own : EndpointEntry.members cfg type name = known.members := by
          rw [EndpointEntry.members, found]
          rfl
        split_ifs at accepted with fqdn empty ifaces
        all_goals cases accepted
        · subst ifaces
          simpa [EndpointEntry.zoneInterfaces, EndpointEntry.ownInterfaces,
            EndpointEntry.addresses, EndpointEntry.namesInterface,
            EndpointEntry.namesAddress, own] using empty
        · cases type with
          | iface => exact absurd rfl ifaces
          | host | network | fqdn =>
              simpa [EndpointEntry.zoneInterfaces,
                EndpointEntry.ownInterfaces, EndpointEntry.addresses,
                EndpointEntry.namesInterface, EndpointEntry.namesAddress,
                own] using empty
  | inline type value =>
      rw [entryMatch] at accepted
      split at accepted
      · cases accepted
      · cases accepted
        simp [EndpointEntry.zoneInterfaces, EndpointEntry.ownInterfaces,
          EndpointEntry.addresses, EndpointEntry.namesInterface,
          EndpointEntry.namesAddress]
  | firewall | ifgroup name => cases accepted

/-- What is known of the parts of an accepted side. -/
theorem mapM_entryMatch_ok {parts : List (List String × List String)}
    (accepted : selection.mapM (entryMatch cfg side) = .ok parts) :
    parts = (selection.map fun entry =>
        (entry.zoneInterfaces cfg ++ entry.ownInterfaces cfg,
          entry.addresses cfg)) ∧
      ∀ entry ∈ selection,
        (entry.namesInterface = true → entry.ownInterfaces cfg ≠ []) ∧
        (entry.namesAddress = true → entry.addresses cfg ≠ []) := by
  induction selection generalizing parts with
  | nil =>
      cases accepted
      simp
  | cons entry rest ih =>
      rw [List.mapM_cons] at accepted
      obtain ⟨part, first, accepted⟩ := bind_eq_ok.mp accepted
      obtain ⟨others, later, accepted⟩ := bind_eq_ok.mp accepted
      cases accepted
      obtain ⟨rfl, proper⟩ := entryMatch_ok first
      obtain ⟨rfl, rest⟩ := ih later
      exact ⟨rfl, List.forall_mem_cons.mpr ⟨proper, rest⟩⟩

/-- An accepted side lists the interfaces of its zones and of its interface
entries, and its addresses. -/
theorem sideMatch_ok {ifaces addrs : List String}
    (accepted : sideMatch selection cfg side = .ok (ifaces, addrs)) :
    (∀ iface, iface ∈ ifaces ↔
      iface ∈ selection.flatMap (EndpointEntry.zoneInterfaces cfg) ∨
        iface ∈ selection.flatMap (EndpointEntry.ownInterfaces cfg)) ∧
    (∀ text, text ∈ addrs ↔
      text ∈ selection.flatMap (EndpointEntry.addresses cfg)) ∧
    (selection.any EndpointEntry.namesInterface = true →
      selection.flatMap (EndpointEntry.ownInterfaces cfg) ≠ []) ∧
    (selection.any EndpointEntry.namesAddress = true →
      selection.flatMap (EndpointEntry.addresses cfg) ≠ []) := by
  rw [sideMatch] at accepted
  obtain ⟨parts, mapped, accepted⟩ := bind_eq_ok.mp accepted
  obtain ⟨rfl, proper⟩ := mapM_entryMatch_ok mapped
  dsimp only at accepted
  split at accepted
  · cases accepted
  · split at accepted
    · cases accepted
    · cases accepted
      refine ⟨fun iface => ?_, fun text => ?_, fun some empty => ?_,
        fun some empty => ?_⟩
      · rw [mem_distinct, List.flatMap_map, List.mem_flatMap,
          List.mem_flatMap, List.mem_flatMap]
        simp only [List.mem_append]
        grind
      · rw [mem_distinct, List.flatMap_map]
      · obtain ⟨entry, member, names⟩ := List.any_eq_true.mp some
        exact (proper entry member).1 names
          (List.flatMap_eq_nil_iff.mp empty entry member)
      · obtain ⟨entry, member, names⟩ := List.any_eq_true.mp some
        exact (proper entry member).2 names
          (List.flatMap_eq_nil_iff.mp empty entry member)

theorem namesAllow_iff {names : List String} {name : String} :
    namesAllow names name = true ↔ names = [] ∨ name ∈ names := by
  rw [namesAllow, Bool.or_eq_true, decide_eq_true_iff, decide_eq_true_iff]

/-- Some interface is allowed. -/
theorem exists_namesAllow (names : List String) :
    ∃ name, namesAllow names name = true := by
  cases names with
  | nil => exact ⟨"", rfl⟩
  | cons name rest => exact ⟨name, namesAllow_iff.mpr (.inr List.mem_cons_self)⟩

theorem isZone_of_mem {iface : String}
    (member : iface ∈ selection.flatMap (EndpointEntry.zoneInterfaces cfg)) :
    selection.any EndpointEntry.isZone = true := by
  obtain ⟨entry, inside, named⟩ := List.mem_flatMap.mp member
  refine List.any_eq_true.mpr ⟨entry, inside, ?_⟩
  cases entry with
  | zone name => rfl
  | _ => cases named

theorem namesInterface_of_mem {iface : String}
    (member : iface ∈ selection.flatMap (EndpointEntry.ownInterfaces cfg)) :
    selection.any EndpointEntry.namesInterface = true := by
  obtain ⟨entry, inside, named⟩ := List.mem_flatMap.mp member
  refine List.any_eq_true.mpr ⟨entry, inside, ?_⟩
  cases entry with
  | interface name => rfl
  | «alias» type name =>
      cases type with
      | iface => rfl
      | host | network | fqdn => cases named
  | _ => cases named

/-- What a side's list allows is on the list, if the side restricts it. -/
theorem mem_of_namesAllow {ifaces addrs : List String}
    (accepted : sideMatch selection cfg side = .ok (ifaces, addrs))
    {iface other : String} (named : namesAllow ifaces iface = true)
    (some : other ∈ selection.flatMap (EndpointEntry.zoneInterfaces cfg) ∨
      other ∈ selection.flatMap (EndpointEntry.ownInterfaces cfg)) :
    iface ∈ selection.flatMap (EndpointEntry.zoneInterfaces cfg) ∨
      iface ∈ selection.flatMap (EndpointEntry.ownInterfaces cfg) := by
  obtain ⟨lists, _⟩ := sideMatch_ok accepted
  rcases namesAllow_iff.mp named with any | member
  · have listed := (lists other).mpr some
    rw [any] at listed
    cases listed
  · exact (lists iface).mp member

/-- A side that can be listed selects whatever its lists allow. -/
theorem onSide_of_listable {ifaces addrs : List String}
    (accepted : sideMatch selection cfg side = .ok (ifaces, addrs))
    (listable : Listable cfg selection) {iface : String} {addr : IpAddr}
    (named : namesAllow ifaces iface = true)
    (addressed : addressesAllow parseAddr addrs addr = true) :
    OnSide parseAddr cfg selection iface addr := by
  obtain ⟨_, texts, someInterface, someAddress⟩ := sideMatch_ok accepted
  constructor
  · intro zoned
    have fits := listable zoned
    by_cases owned : selection.any EndpointEntry.namesInterface = true
    · rw [if_pos owned] at fits
      obtain ⟨own, member⟩ := List.exists_mem_of_ne_nil _ (someInterface owned)
      exact (mem_of_namesAllow accepted named (.inr member)).elim id
        (fits iface).mpr
    · rw [if_neg owned] at fits
      obtain ⟨own, member⟩ := List.exists_mem_of_ne_nil _ fits
      exact (mem_of_namesAllow accepted named (.inl member)).resolve_right
        fun own => owned (namesInterface_of_mem own)
  · intro owned
    obtain ⟨own, member⟩ := List.exists_mem_of_ne_nil _ (someInterface owned)
    refine (mem_of_namesAllow accepted named (.inr member)).elim ?_ id
    intro ofZone
    have fits := listable (isZone_of_mem ofZone)
    rw [if_pos owned] at fits
    exact (fits iface).mp ofZone
  · intro some
    obtain ⟨text, member⟩ := List.exists_mem_of_ne_nil _ (someAddress some)
    rw [addressesAllow, Bool.or_eq_true, decide_eq_true_iff,
      List.any_eq_true] at addressed
    rcases addressed with any | ⟨found, listed, covers⟩
    · have listed := (texts text).mpr member
      rw [any] at listed
      cases listed
    · exact ⟨found, (texts found).mp listed, covers⟩

/-- A side that cannot be listed does not select some interface that its lists
allow, whatever the address. -/
theorem exists_offSide {ifaces addrs : List String}
    (accepted : sideMatch selection cfg side = .ok (ifaces, addrs))
    (unlistable : ¬ Listable cfg selection) :
    ∃ iface, namesAllow ifaces iface = true ∧
      ∀ addr, ¬ OnSide parseAddr cfg selection iface addr := by
  obtain ⟨lists, _, someInterface, _⟩ := sideMatch_ok accepted
  rw [Listable, Classical.not_imp] at unlistable
  obtain ⟨zoned, misfit⟩ := unlistable
  by_cases owned : selection.any EndpointEntry.namesInterface = true
  · rw [if_pos owned, not_forall] at misfit
    obtain ⟨iface, differs⟩ := misfit
    have apart : ∀ addr, ¬ OnSide parseAddr cfg selection iface addr :=
      fun addr onSide => differs
        (iff_of_true (onSide.zone zoned) (onSide.interface owned))
    refine ⟨iface, namesAllow_iff.mpr (.inr ((lists iface).mpr ?_)), apart⟩
    by_contra neither
    rw [not_or] at neither
    exact differs (iff_of_false neither.1 neither.2)
  · rw [if_neg owned, ne_eq, not_not] at misfit
    have unlisted : ifaces = [] := by
      refine List.eq_nil_iff_forall_not_mem.mpr fun iface member => ?_
      rcases (lists iface).mp member with ofZone | own
      · rw [misfit] at ofZone
        cases ofZone
      · exact owned (namesInterface_of_mem own)
    refine ⟨"", namesAllow_iff.mpr (.inl unlisted), fun addr onSide => ?_⟩
    have inside := onSide.zone zoned
    rw [misfit] at inside
    cases inside

end Sides

/-! ## The binding of a rule -/

theorem satisfied_spec {parseAddr : String → Option IpAddr}
    {matched : AcMatch} {packet : Forwarded} :
    matched.spec.satisfied parseAddr packet = true ↔
      namesAllow matched.iifname packet.iifname = true ∧
        namesAllow matched.oifname packet.oifname = true ∧
        addressesAllow parseAddr matched.saddr packet.addresses.source = true ∧
        addressesAllow parseAddr matched.daddr
          packet.addresses.destination = true := by
  simp [MatchSpec.satisfied, AcMatch.spec, and_assoc]

/-- A binding selects only what its rule does if and only if both sides of the
rule can be listed, or no addresses are matched at all. -/
theorem acMatch_within_iff (parseAddr : String → Option IpAddr)
    {source target : EndpointSelection} {cfg : FirewallConfig}
    {matched : AcMatch}
    (built : acMatchFromSelections source target cfg = .ok matched) :
    (∀ packet : Forwarded, matched.spec.satisfied parseAddr packet = true →
      Selected parseAddr cfg source target packet) ↔
    (Listable cfg source ∧ Listable cfg target) ∨
      ¬ ∃ addresses : Addresses,
        addressesAllow parseAddr matched.saddr addresses.source = true ∧
        addressesAllow parseAddr matched.daddr addresses.destination = true := by
  obtain ⟨⟨iifname, saddr⟩, fromSide, built⟩ := bind_eq_ok.mp built
  obtain ⟨⟨oifname, daddr⟩, toSide, built⟩ := bind_eq_ok.mp built
  cases built
  simp only [satisfied_spec]
  constructor
  · intro within
    rw [or_iff_not_imp_right, not_not]
    rintro ⟨addresses, sources, destinations⟩
    have selected : ∀ iif oif, namesAllow iifname iif = true →
        namesAllow oifname oif = true →
        OnSide parseAddr cfg source iif addresses.source ∧
          OnSide parseAddr cfg target oif addresses.destination :=
      fun iif oif inbound outbound =>
        within ⟨iif, oif, addresses, Nft.tcp, 0⟩
          ⟨inbound, outbound, sources, destinations⟩
    constructor
    · by_contra unlistable
      obtain ⟨iif, inbound, off⟩ := exists_offSide fromSide unlistable
      obtain ⟨oif, outbound⟩ := exists_namesAllow oifname
      exact off _ (selected iif oif inbound outbound).1
    · by_contra unlistable
      obtain ⟨oif, outbound, off⟩ := exists_offSide toSide unlistable
      obtain ⟨iif, inbound⟩ := exists_namesAllow iifname
      exact off _ (selected iif oif inbound outbound).2
  · rintro (⟨listed, listed'⟩ | none) packet ⟨inbound, outbound, sources,
      destinations⟩
    · exact ⟨onSide_of_listable fromSide listed inbound sources,
        onSide_of_listable toSide listed' outbound destinations⟩
    · exact absurd ⟨_, sources, destinations⟩ none

section Examples

/-- The zone of the tunnel has no interface of its own. -/
def tunnelConfig : Cfg :=
  .node [("firewall", .node [("zone", .node [
    ("LAN", .node [("member", .node [("interface", .value "eth1")])]),
    ("TUN", .node [("member", .node [("vrf", .value "blue")])]),
    ("WAN", .node [("member", .node [("interface", .value "eth0")])])])])]

def toWan (iifname : String) : Forwarded :=
  ⟨iifname, "eth0", .v4 0x0A000001#32 0x01010101#32, Nft.tcp, 443⟩

theorem lan_within :
    Selected (fun _ => none) (fetchFirewall codepoints tunnelConfig)
      [.zone "LAN"] [.zone "WAN"] (toWan "eth1") := by
  have built : acMatchFromSelections [.zone "LAN"] [.zone "WAN"]
      (fetchFirewall codepoints tunnelConfig) =
        .ok ⟨["eth1"], ["eth0"], [], []⟩ := by rfl
  have listable : Listable (fetchFirewall codepoints tunnelConfig)
        [.zone "LAN"] ∧
      Listable (fetchFirewall codepoints tunnelConfig) [.zone "WAN"] :=
    ⟨fun _ => List.cons_ne_nil "eth1" [], fun _ => List.cons_ne_nil "eth0" []⟩
  exact (acMatch_within_iff (fun _ => none) built).mpr (.inl listable)
    (toWan "eth1") (by decide)

/-- From the tunnel's zone the binding matches what comes from anywhere. -/
theorem tunnel_widened :
    acMatchFromSelections [.zone "TUN"] [.zone "WAN"]
        (fetchFirewall codepoints tunnelConfig) =
        .ok ⟨[], ["eth0"], [], []⟩ ∧
      (AcMatch.spec ⟨[], ["eth0"], [], []⟩).satisfied (fun _ => none)
        (toWan "eth1") = true ∧
      ¬ Selected (fun _ => none) (fetchFirewall codepoints tunnelConfig)
        [.zone "TUN"] [.zone "WAN"] (toWan "eth1") := by
  refine ⟨by rfl, by decide, fun selected => ?_⟩
  have listed : "eth1" ∈ ([] : List String) := selected.1.zone rfl
  cases listed

end Examples

end QuartzFire.Firewall
