import QuartzFire.Firewall.DiffRule
import QuartzFire.Firewall.Schema

/-!
# Saving a rule unchanged

The form shows a rule as two lists of entries, a reconstruction from where the
rule lives and what it matches.  Where the configuration is stored the way the
console writes it, saving that reconstruction gives no command.
-/

namespace QuartzFire.Firewall

/-! ## Text that is trimmed already -/

/-- Trimming changes nothing. -/
def Trim (text : Option String) : Prop := text.bind trimmed = text

theorem trim_trimmed (text : String) : Trim (trimmed text) := by
  rw [Trim]
  cases trims : trimmed text with
  | none => rfl
  | some kept => rw [Option.bind_some, trimmed_trimmed trims]

theorem trim_childStr (cfg : Cfg) (key : String) : Trim (childStr cfg key) := by
  rw [childStr]
  split
  · exact trim_trimmed _
  · rfl

/-! ## A stored side -/

/-- What holds of every side as parsed. -/
structure RuleEndpoint.Parsed (endpoint : RuleEndpoint) : Prop where
  reference : endpoint.groupType = none ∧ endpoint.groupName = none ∨
    ∃ type name, type ≠ AliasType.iface ∧
      AliasType.ofNode type.node = some type ∧
      endpoint.groupType = some type.node ∧ endpoint.groupName = some name ∧
      name ≠ "" ∧ endpoint.address = none
  address : Trim endpoint.address
  iface : Trim endpoint.iface

theorem childStr_ne_empty {cfg : Cfg} {key text : String}
    (found : childStr cfg key = some text) : text ≠ "" := by
  rw [childStr] at found
  split at found
  · rw [trimmed, Option.ite_none_left_eq_some, Option.some.injEq] at found
    exact found.2 ▸ found.1
  · cases found

theorem parseEndpoint_iface (cfg : Cfg) (side : Side) :
    (parseEndpoint cfg side).iface =
      (match cfg.child side.ifaceNode with
        | some (.value text) => (trimmed text, none)
        | some node => (childStr node "name", childStr node "group")
        | none => (none, none)).1 := by
  rw [parseEndpoint]
  dsimp only
  cases refNodes.findSome? _ <;> rfl

theorem parsed_parseEndpoint (cfg : Cfg) (side : Side) :
    (parseEndpoint cfg side).Parsed := by
  have interface : Trim (parseEndpoint cfg side).iface := by
    rw [parseEndpoint_iface]
    split
    · dsimp only
      exact trim_trimmed _
    · exact trim_childStr _ "name"
    · rfl
  refine ⟨?_, ?_, interface⟩
  · simp only [parseEndpoint]
    split
    · rename_i node name found
      refine .inr ?_
      obtain ⟨ref, member, found⟩ := List.exists_of_findSome?_eq_some found
      rw [Option.map_eq_some_iff] at found
      obtain ⟨text, stored, same⟩ := found
      cases same
      have proper := childStr_ne_empty stored
      simp only [refNodes, List.mem_cons, List.not_mem_nil, or_false] at member
      rcases member with rfl | rfl | rfl
      · exact ⟨.host, _, by decide, by decide, rfl, rfl, proper, rfl⟩
      · exact ⟨.network, _, by decide, by decide, rfl, rfl, proper, rfl⟩
      · exact ⟨.fqdn, _, by decide, by decide, rfl, rfl, proper, rfl⟩
    · exact .inl ⟨rfl, rfl⟩
  · simp only [parseEndpoint]
    split
    · rfl
    · exact trim_childStr _ _

/-- A side stored the way the form writes it: its auto groups hold what would
be put in them, and it has one interface match at most. -/
structure StoredAsWritten (autoGroups : List AutoGroup)
    (endpoint : RuleEndpoint) : Prop where
  several : ∀ auto,
    findAuto autoGroups endpoint.groupType endpoint.groupName = some auto →
      2 ≤ auto.includes.length + auto.members.length ∨
        auto.includes = [] ∧ auto.members ≠ []
  inline : ∀ auto,
    findAuto autoGroups endpoint.groupType endpoint.groupName = some auto →
      ∀ type, AliasType.ofNode auto.node = some type →
        ∀ value ∈ auto.members,
          validateInline type value = none ∧ trim value = value
  domain : ∀ auto,
    findAuto autoGroups endpoint.groupType endpoint.groupName = some auto →
      auto.node = AliasType.fqdn.node → auto.includes = []
  interfaces : ∀ auto,
    findAuto autoGroups (some "interface-group") endpoint.ifaceGroup =
      some auto → 2 ≤ auto.interfaces.length ∧
        ∀ name ∈ auto.interfaces, trimmed name = some name
  oneMatch : endpoint.iface = none ∨ endpoint.ifaceGroup = none

theorem findAuto_eq {autoGroups : List AutoGroup} {node name : String}
    {auto : AutoGroup}
    (found : findAuto autoGroups (some node) (some name) = some auto) :
    auto.node = node ∧ auto.name = name := by
  have holds := List.find?_some found
  simpa using holds

@[simp] theorem diffLeaf_self (path : Path) (members : List String) :
    diffLeaf path members members = [] := by
  simp [diffLeaf]

/-- An auto group of the form's making takes its own entries back. -/
theorem planReference_auto {autoGroups : List AutoGroup} {type : AliasType}
    {name : String} {auto : AutoGroup}
    (found : findAuto autoGroups (some type.node) (some name) = some auto)
    (several : 2 ≤ auto.includes.length + auto.members.length ∨
      auto.includes = [] ∧ auto.members ≠ [])
    (trims : ∀ value ∈ auto.members, trim value = value) (rule : Nat)
    (side : Side) (taken : List String) :
    planReference rule side (some auto) (some type) auto.includes auto.members
      taken = ([], some (type.node, name), taken) := by
  obtain ⟨node, named⟩ := findAuto_eq found
  have same : auto.members.map trim = auto.members :=
    (List.map_congr_left trims).trans (List.map_id _)
  have reuse : (some auto).filter (fun auto => auto.node = type.node) =
      some auto := by simp [node]
  unfold planReference
  dsimp only
  split
  · rename_i one none
    rw [one, none] at several
    simp at several
  · rw [reuse, same]
    simp [diffAliasAutoGroup, markGroup, named]

theorem planFamily_auto {type : AliasType} {includes members : List String}
    (proper : includes ≠ [] ∨ members ≠ [])
    (valid : ∀ value ∈ members, validateInline type value = none)
    (domain : type = .fqdn → includes = []) :
    planFamily (includes.map (type, ·)) (members.map (type, ·)) =
      .ok (some type) := by
  have types : ∀ names : List String, names ≠ [] →
      distinct (names.map fun _ => type) = [type] := by
    intro names proper
    induction names with
    | nil => exact absurd rfl proper
    | cons name names ih =>
        rw [List.map_cons, distinct]
        cases names with
        | nil => rfl
        | cons other names => rw [ih (by simp)]; simp
  have both : distinct ((includes.map (type, ·)).map Prod.fst ++
      (members.map (type, ·)).map Prod.fst) = [type] := by
    rw [List.map_map, List.map_map, ← List.map_append]
    refine types (includes ++ members) fun empty => ?_
    rw [List.append_eq_nil_iff] at empty
    exact proper.elim (· empty.1) (· empty.2)
  have accepted : ∀ entry ∈ members.map (type, ·),
      validateInline entry.1 entry.2 = none := by
    intro entry member
    obtain ⟨value, inside, rfl⟩ := List.mem_map.mp member
    exact valid value inside
  rw [planFamily]
  simp only [both, List.findSome?_eq_none_iff.mpr accepted]
  by_cases fqdn : type = .fqdn
  · simp [domain fqdn]
    rfl
  · simp [fqdn]
    rfl

/-- The interface entries of a stored side. -/
def interfaceEntries (endpoint : RuleEndpoint) (autoGroups : List AutoGroup) :
    List String :=
  endpoint.iface.toList ++
    ((findAuto autoGroups (some "interface-group") endpoint.ifaceGroup).map
      AutoGroup.interfaces).getD []

/-- The interface alias of a stored side. -/
def aliasEntries (endpoint : RuleEndpoint) (autoGroups : List AutoGroup) :
    List String :=
  match findAuto autoGroups (some "interface-group") endpoint.ifaceGroup with
  | some _ => []
  | none => endpoint.ifaceGroup.toList

theorem planInterfaces_stored {autoGroups : List AutoGroup}
    {endpoint : RuleEndpoint} (parsed : endpoint.Parsed)
    (stored : StoredAsWritten autoGroups endpoint) (rule : Nat) (side : Side)
    (taken : List String) :
    planInterfaces rule side
      (findAuto autoGroups (some "interface-group") endpoint.ifaceGroup)
      (aliasEntries endpoint autoGroups)
      ((interfaceEntries endpoint autoGroups).filterMap trimmed) taken =
        .ok ([], endpoint.iface, endpoint.ifaceGroup, taken) := by
  have oneMatch := stored.oneMatch
  have trims := parsed.iface
  cases grouped : endpoint.ifaceGroup with
  | none =>
      have absent : findAuto autoGroups (some "interface-group") none = none :=
        rfl
      cases named : endpoint.iface with
      | none =>
          simp [interfaceEntries, aliasEntries, grouped, named, absent,
            planInterfaces]
          rfl
      | some iface =>
          rw [named, Trim, Option.bind_some] at trims
          simp [interfaceEntries, aliasEntries, grouped, named, absent, trims,
            planInterfaces]
          rfl
  | some group =>
      have unnamed : endpoint.iface = none :=
        oneMatch.resolve_right (by simp [grouped])
      cases found : findAuto autoGroups (some "interface-group")
          (some group) with
      | none =>
          simp [interfaceEntries, aliasEntries, grouped, unnamed, found,
            planInterfaces]
          rfl
      | some auto =>
          obtain ⟨several, kept⟩ := stored.interfaces auto (grouped ▸ found)
          obtain ⟨_, name⟩ := findAuto_eq found
          have same : auto.interfaces.filterMap trimmed = auto.interfaces := by
            rw [List.filterMap_congr kept, List.filterMap_some]
          simp only [interfaceEntries, aliasEntries, grouped, unnamed, found,
            Option.toList_none, List.nil_append, Option.map_some,
            Option.getD_some, same]
          match listed : auto.interfaces, several with
          | first :: second :: rest, _ =>
              simp [planInterfaces, diffAutoMembers, markGroup, listed, name]
              rfl

/-- The entries a stored side contributes, by what they become. -/
structure SelectionParts (selection : EndpointSelection)
    (endpoint : RuleEndpoint) (autoGroups : List AutoGroup)
    (aliases inlines : List (AliasType × String)) : Prop where
  aliases : (selection.filterMap EndpointEntry.aliasRef).filter
    (fun entry => entry.1 ≠ .iface) = aliases
  ifaceAliases : ((selection.filterMap EndpointEntry.aliasRef).filter
    fun entry => entry.1 = .iface).map Prod.snd =
      aliasEntries endpoint autoGroups
  inlines : selection.filterMap EndpointEntry.inlineValue = inlines
  interfaces : selection.filterMap EndpointEntry.interfaceName =
    interfaceEntries endpoint autoGroups
  groups : selection.filterMap EndpointEntry.ifgroupName = []
  address : selection.findSome? EndpointEntry.literalAddress =
    endpoint.address

/-- The entries saying where the rule lives. -/
def Places (selection : EndpointSelection) : Prop :=
  ∀ entry ∈ selection, entry = .firewall ∨ ∃ name, entry = .zone name

theorem Places.filterMap_eq_nil {Value : Type} {places : EndpointSelection}
    (apart : Places places) {read : EndpointEntry → Option Value}
    (firewall : read .firewall = none)
    (zone : ∀ name, read (.zone name) = none) :
    places.filterMap read = [] := by
  rw [List.filterMap_eq_nil_iff]
  intro entry member
  rcases apart entry member with rfl | ⟨name, rfl⟩
  · exact firewall
  · exact zone name

@[simp] theorem findSome?_none {Item Value : Type} (items : List Item) :
    items.findSome? (fun _ => (none : Option Value)) = none := by
  rw [List.findSome?_eq_none_iff]
  exact fun _ _ => rfl

/-- The list entries behind the address match of a side. -/
def referenceEntries (endpoint : RuleEndpoint) (autoGroups : List AutoGroup) :
    EndpointSelection :=
  match endpoint.groupType, endpoint.groupName with
  | some node, some name =>
      match AliasType.ofNode node with
      | none => []
      | some type =>
          match findAuto autoGroups (some node) (some name) with
          | some auto => auto.includes.map (.alias type) ++
              auto.members.map (.inline type)
          | none => [.alias type name]
  | _, _ => []

/-- The entries behind the interface match of a side. -/
def interfaceSelection (endpoint : RuleEndpoint)
    (autoGroups : List AutoGroup) : EndpointSelection :=
  (interfaceEntries endpoint autoGroups).map .interface ++
    (aliasEntries endpoint autoGroups).map (.alias .iface)

theorem endpointToSelection_eq (endpoint : RuleEndpoint)
    (autoGroups : List AutoGroup) :
    endpointToSelection endpoint autoGroups =
      referenceEntries endpoint autoGroups ++
        interfaceSelection endpoint autoGroups ++
          endpoint.address.toList.map .address := by
  change referenceEntries endpoint autoGroups ++
    endpoint.iface.toList.map .interface ++ _ ++ _ = _
  rw [interfaceSelection, interfaceEntries, aliasEntries]
  cases grouped : endpoint.ifaceGroup with
  | none =>
      have absent : findAuto autoGroups (some "interface-group") none = none :=
        rfl
      simp [absent]
  | some group =>
      dsimp only
      cases found : findAuto autoGroups (some "interface-group")
          (some group) <;> simp

/-- What the reference entries of a side are read back as. -/
def References (endpoint : RuleEndpoint) (autoGroups : List AutoGroup)
    (aliases inlines : List (AliasType × String)) : Prop :=
  ∃ includes members,
    referenceEntries endpoint autoGroups =
      includes.map (fun entry : AliasType × String =>
        EndpointEntry.alias entry.1 entry.2) ++
      members.map (fun entry : AliasType × String =>
        EndpointEntry.inline entry.1 entry.2) ∧
    (∀ entry ∈ includes, entry.1 ≠ .iface) ∧
    aliases = includes ∧ inlines = members

theorem selectionParts {endpoint : RuleEndpoint} {autoGroups : List AutoGroup}
    {aliases inlines : List (AliasType × String)} {places : EndpointSelection}
    (apart : Places places)
    (references : References endpoint autoGroups aliases inlines) :
    SelectionParts (places ++ endpointToSelection endpoint autoGroups) endpoint
      autoGroups aliases inlines := by
  obtain ⟨aliases, inlines, shape, named, rfl, rfl⟩ := references
  have selection : places ++ endpointToSelection endpoint autoGroups =
      places ++ (aliases.map (fun entry : AliasType × String =>
          EndpointEntry.alias entry.1 entry.2) ++
        inlines.map (fun entry : AliasType × String =>
          EndpointEntry.inline entry.1 entry.2) ++
        ((interfaceEntries endpoint autoGroups).map .interface ++
          (aliasEntries endpoint autoGroups).map (.alias .iface)) ++
        endpoint.address.toList.map .address) := by
    rw [endpointToSelection_eq, shape, interfaceSelection]
  have noIface : aliases.filter (fun entry => entry.1 = .iface) = [] := by
    simpa using fun type name member => named (type, name) member
  have allNamed : aliases.filter (fun entry => entry.1 ≠ .iface) = aliases := by
    simpa using fun type name member => named (type, name) member
  rw [selection]
  constructor
  · rw [List.filterMap_append, apart.filterMap_eq_nil rfl fun _ => rfl]
    simpa [EndpointEntry.aliasRef, Function.comp_def, List.filter_map] using
      allNamed
  · rw [List.filterMap_append, apart.filterMap_eq_nil rfl fun _ => rfl]
    simp [EndpointEntry.aliasRef, Function.comp_def, List.filter_map, noIface]
  · rw [List.filterMap_append, apart.filterMap_eq_nil rfl fun _ => rfl]
    simp [EndpointEntry.inlineValue, Function.comp_def]
  · rw [List.filterMap_append, apart.filterMap_eq_nil rfl fun _ => rfl]
    simp [EndpointEntry.interfaceName, Function.comp_def]
  · rw [List.filterMap_append, apart.filterMap_eq_nil rfl fun _ => rfl]
    simp [EndpointEntry.ifgroupName, Function.comp_def]
  · rw [List.findSome?_append]
    have none : places.findSome? EndpointEntry.literalAddress = none := by
      rw [List.findSome?_eq_none_iff]
      intro entry member
      rcases apart entry member with rfl | ⟨name, rfl⟩ <;> rfl
    rw [none]
    cases endpoint.address <;>
      simp [EndpointEntry.literalAddress, List.findSome?_append,
        Function.comp_def, List.findSome?_map, findSome?_none]

@[simp] theorem ok_bind {Error Value Result : Type} (value : Value)
    (next : Value → Except Error Result) :
    (Except.ok value >>= next) = next value := rfl

/-- What the reference entries of a side stored as written are planned as. -/
theorem planReference_stored {endpoint : RuleEndpoint}
    {autoGroups : List AutoGroup} (parsed : endpoint.Parsed)
    (stored : StoredAsWritten autoGroups endpoint) :
    ∃ aliases inlines family,
      References endpoint autoGroups aliases inlines ∧
      planFamily aliases inlines = .ok family ∧
      ∀ rule side taken, planReference rule side
        (findAuto autoGroups endpoint.groupType endpoint.groupName) family
        (aliases.map Prod.snd) (inlines.map Prod.snd) taken =
          ([], (endpoint.groupType.bind fun node =>
            endpoint.groupName.map (node, ·)), taken) := by
  rcases parsed.reference with ⟨noType, noName⟩ |
    ⟨type, name, notIface, known, hasType, hasName, _, _⟩
  · refine ⟨[], [], none, ⟨[], [], ?_, by simp, rfl, rfl⟩, rfl, ?_⟩
    · rw [referenceEntries, noType]
      rfl
    · intro rule side taken
      rw [noType]
      rfl
  · rw [hasType, hasName]
    cases found : findAuto autoGroups (some type.node) (some name) with
    | none =>
        refine ⟨[(type, name)], [], some type,
          ⟨[(type, name)], [], ?_, by simpa using notIface, rfl, rfl⟩, ?_, ?_⟩
        · simp [referenceEntries, hasType, hasName, known, found]
        · by_cases fqdn : type = .fqdn <;>
            simp [planFamily, distinct, fqdn] <;> rfl
        · intro rule side taken
          simp [planReference]
    | some auto =>
        have same := found
        rw [← hasType, ← hasName] at found
        obtain ⟨node, _⟩ := findAuto_eq same
        have several := stored.several auto found
        have inline := stored.inline auto found type (node ▸ known)
        refine ⟨auto.includes.map (type, ·), auto.members.map (type, ·),
          some type, ⟨auto.includes.map (type, ·), auto.members.map (type, ·),
            ?_, ?_, rfl, rfl⟩, ?_, ?_⟩
        · simp [referenceEntries, hasType, hasName, known, same,
            Function.comp_def]
        · intro entry member
          obtain ⟨_, _, rfl⟩ := List.mem_map.mp member
          exact notIface
        · refine planFamily_auto ?_ (fun value member =>
            (inline value member).1) ?_
          · rcases several with several | ⟨_, proper⟩
            · by_contra none
              rw [not_or, not_not, not_not] at none
              rw [none.1, none.2] at several
              simp at several
            · exact .inr proper
          · rintro rfl
            exact stored.domain auto found node
        · intro rule side taken
          simpa [Function.comp_def] using planReference_auto same several
            (fun value member => (inline value member).2) rule side taken

/-- Planning a stored side from its own entries gives no command, and the match
there is. -/
theorem planEndpoint_stored {endpoint : RuleEndpoint}
    {autoGroups : List AutoGroup} (parsed : endpoint.Parsed)
    (stored : StoredAsWritten autoGroups endpoint)
    {places : EndpointSelection} (apart : Places places) (rule : Nat)
    (side : Side) (taken : List String) :
    planEndpoint rule side (some endpoint)
      (places ++ endpointToSelection endpoint autoGroups) autoGroups taken =
        .ok
          { commands := []
            desired :=
              { node := endpoint.groupType
                name := endpoint.groupName
                addr := endpoint.address
                iface := endpoint.iface
                ifGroup := endpoint.ifaceGroup }
            taken := taken } := by
  obtain ⟨aliases, inlines, family, references, families, planned⟩ :=
    planReference_stored parsed stored
  have parts := selectionParts apart references
  have named := planInterfaces_stored parsed stored rule side taken
  have node : (endpoint.groupType.bind fun node =>
      endpoint.groupName.map (node, ·)).map Prod.fst = endpoint.groupType ∧
      (endpoint.groupType.bind fun node =>
        endpoint.groupName.map (node, ·)).map Prod.snd =
          endpoint.groupName := by
    rcases parsed.reference with ⟨noType, noName⟩ |
      ⟨_, _, _, _, hasType, hasName, _⟩
    · simp [noType, noName]
    · simp [hasType, hasName]
  have address : endpoint.address.bind trimmed = endpoint.address :=
    parsed.address
  simp only [planEndpoint, parts.aliases, parts.ifaceAliases, parts.inlines,
    parts.interfaces, parts.groups, parts.address, List.append_nil, families,
    ok_bind, Option.bind_some, planned, named, node.1, node.2, address]
  rfl

theorem endpointWrites_same (base : Path) (side : Side)
    (endpoint : RuleEndpoint) :
    endpointWrites base side (some endpoint)
      { node := endpoint.groupType
        name := endpoint.groupName
        addr := endpoint.address
        iface := endpoint.iface
        ifGroup := endpoint.ifaceGroup } = [] := by
  simp only [endpointWrites, Option.bind_some, ne_eq, not_true_eq_false,
    decide_false, Bool.or_false, Bool.false_eq_true, if_false, decide_true,
    Bool.and_true, if_true, List.append_nil, Bool.false_and]
  split <;> split <;> rfl

/-! ## Where a stored rule lives -/

/-- The zone pairs a rule spans: those bound to its rulesets. -/
def Spans (cfg : FirewallConfig) (rule : FirewallRule) (pair : ZonePair) :
    Prop :=
  pair ∈ cfg.zonePairs ∧ ∃ scope ∈ rule.scopes, scope.chain = .name pair.ruleset

/-- A zone rule stored the way the form writes it: in the pairs of its From
zones with its To zones, each bound to a ruleset of its own name, the firewall
alone on its side. -/
structure ZonesAsWritten (cfg : FirewallConfig) (rule : FirewallRule) :
    Prop where
  state : cfg.statePolicy = true
  own : ∀ pair, Spans cfg rule pair →
    pair.ruleset = pairRuleset pair.src pair.dst
  onePair : ∀ pair other, Spans cfg rule pair → Spans cfg rule other →
    pair.ruleset = other.ruleset → pair = other
  product : ∀ pair other, Spans cfg rule pair → Spans cfg rule other →
    Spans cfg rule ⟨pair.src, other.dst, pairRuleset pair.src other.dst⟩
  apart : ∀ pair other, Spans cfg rule pair → Spans cfg rule other →
    pair.src ≠ other.dst
  alone : ∀ side pair, Spans cfg rule pair →
    cfg.isLocalZone (pair.side side) = true →
      (∀ other, Spans cfg rule other → other.side side = pair.side side) ∧
      (localZone cfg.zones).map FirewallZone.name = some (pair.side side)

theorem distinct_of_nodup {Item : Type} [DecidableEq Item]
    {items : List Item} (unique : items.Nodup) : distinct items = items := by
  induction items with
  | nil => rfl
  | cons item items ih =>
      rw [List.nodup_cons] at unique
      rw [distinct, ih unique.2, List.filter_eq_self.mpr]
      intro other member
      have different : other ≠ item := by
        rintro rfl
        exact unique.1 member
      simpa using different

theorem places_sideEntries (cfg : FirewallConfig) (names : List String) :
    Places (names.map fun name =>
      if cfg.isLocalZone name then EndpointEntry.firewall else .zone name) := by
  intro entry member
  obtain ⟨name, _, rfl⟩ := List.mem_map.mp member
  split
  · exact .inl rfl
  · exact .inr ⟨name, rfl⟩

theorem not_place_endpointToSelection {endpoint : RuleEndpoint}
    {autoGroups : List AutoGroup} :
    ∀ entry ∈ endpointToSelection endpoint autoGroups,
      entry.isZone = false ∧ entry.isFirewall = false := by
  intro entry member
  rw [endpointToSelection_eq, interfaceSelection, List.mem_append,
    List.mem_append, List.mem_append] at member
  rcases member with (inReference | inNames | inAliases) | inAddress
  · rw [referenceEntries] at inReference
    split at inReference
    · split at inReference
      · simp at inReference
      · split at inReference
        · rw [List.mem_append] at inReference
          rcases inReference with inside | inside <;>
            obtain ⟨_, _, rfl⟩ := List.mem_map.mp inside <;> exact ⟨rfl, rfl⟩
        · rw [List.mem_singleton] at inReference
          exact inReference ▸ ⟨rfl, rfl⟩
    · simp at inReference
  · obtain ⟨_, _, rfl⟩ := List.mem_map.mp inNames
    exact ⟨rfl, rfl⟩
  · obtain ⟨_, _, rfl⟩ := List.mem_map.mp inAliases
    exact ⟨rfl, rfl⟩
  · obtain ⟨_, _, rfl⟩ := List.mem_map.mp inAddress
    exact ⟨rfl, rfl⟩

theorem any_endpointToSelection (endpoint : RuleEndpoint)
    (autoGroups : List AutoGroup) :
    (endpointToSelection endpoint autoGroups).any EndpointEntry.isZone =
        false ∧
      (endpointToSelection endpoint autoGroups).any EndpointEntry.isFirewall =
        false := by
  constructor
  · exact List.any_eq_false.mpr fun entry member => by
      simp [(not_place_endpointToSelection entry member).1]
  · exact List.any_eq_false.mpr fun entry member => by
      simp [(not_place_endpointToSelection entry member).2]

theorem zoneName_endpointToSelection (endpoint : RuleEndpoint)
    (autoGroups : List AutoGroup) :
    (endpointToSelection endpoint autoGroups).filterMap
      EndpointEntry.zoneName = [] := by
  rw [List.filterMap_eq_nil_iff]
  intro entry member
  have notZone := (not_place_endpointToSelection entry member).1
  cases entry <;> first | rfl | cases notZone

/-- A base chain rule is shown with the firewall on the side its chain says. -/
theorem placeRule_base {locale : Locale} {rule : FirewallRule}
    {cfg : FirewallConfig} {chain : BaseChain} {update : RuleUpdate}
    (atChain : rule.chain = .base chain)
    (single : rule.scopes = [⟨.base chain, rule.raw⟩])
    (number : update.rule = rule.rule)
    (source : update.source = ruleSelection rule .from cfg.autoGroups cfg)
    (target : update.target = ruleSelection rule .to cfg.autoGroups cfg) :
    zonePairsFor update.source update.target cfg.zones = .ok [] ∧
    placeRule locale (some rule) update cfg =
      .ok ⟨[], [.base chain], false, rule.rule⟩ := by
  have noNames : ∀ side, sideNames rule side cfg.zonePairs = [] := by
    intro side
    rw [sideNames, single]
    rfl
  have zones := fun side => any_endpointToSelection (rule.side side)
    cfg.autoGroups
  have shown : ∀ side, ruleSelection rule side cfg.autoGroups cfg =
      (if side = .to ∧ chain = .input ∨ side = .from ∧ chain = .output then
        [EndpointEntry.firewall] else []) ++
          endpointToSelection (rule.side side) cfg.autoGroups := by
    intro side
    rw [ruleSelection, atChain, noNames]
    simp only [RuleChain.base.injEq]
    split <;> rfl
  have noZones : ∀ side, (ruleSelection rule side cfg.autoGroups cfg).any
      EndpointEntry.isZone = false := by
    intro side
    rw [shown, List.any_append, (zones side).1]
    split <;> rfl
  have firewalls : ∀ side, (ruleSelection rule side cfg.autoGroups cfg).any
      EndpointEntry.isFirewall =
        decide (side = .to ∧ chain = .input ∨ side = .from ∧ chain = .output) := by
    intro side
    rw [shown, List.any_append, (zones side).2]
    split <;> simp_all [EndpointEntry.isFirewall]
  have pairs : zonePairsFor update.source update.target cfg.zones = .ok [] := by
    rw [zonePairsFor, source, target, noZones, noZones]
    rfl
  refine ⟨pairs, ?_⟩
  rw [placeRule, pairs, ruleChainsFor, pairs, source, target, firewalls,
    firewalls]
  cases chain <;> simp [FirewallRule.isZone, atChain, RuleChain.isBaseChain,
    number, pure, Except.pure]

section Zones

variable {cfg : FirewallConfig} {rule : FirewallRule}

theorem pairForChain_spans {scope : RuleScope} {pair : ZonePair}
    (inScopes : scope ∈ rule.scopes)
    (found : pairForChain cfg.zonePairs scope.chain = some pair) :
    Spans cfg rule pair := by
  rw [pairForChain, Option.bind_eq_some_iff] at found
  obtain ⟨ruleset, named, found⟩ := found
  have same : pair.ruleset = ruleset := by simpa using List.find?_some found
  refine ⟨List.mem_of_find?_eq_some found, scope, inScopes, ?_⟩
  cases holds : scope.chain with
  | base chain => simp [holds, RuleChain.rulesetName] at named
  | name other =>
      rw [holds] at named
      rw [same, Option.some.inj named]

theorem mem_sideNames (zones : ZonesAsWritten cfg rule) {side : FormSide}
    {name : String} :
    name ∈ sideNames rule side cfg.zonePairs ↔
      ∃ pair, Spans cfg rule pair ∧ pair.side side = name := by
  rw [sideNames, mem_distinct, List.mem_filterMap]
  constructor
  · rintro ⟨scope, inScopes, found⟩
    obtain ⟨pair, bound, rfl⟩ := Option.map_eq_some_iff.mp found
    exact ⟨pair, pairForChain_spans inScopes bound, rfl⟩
  · rintro ⟨pair, spans, rfl⟩
    obtain ⟨bound, scope, inScopes, chain⟩ := spans
    refine ⟨scope, inScopes, ?_⟩
    have found : pairForChain cfg.zonePairs scope.chain ≠ none := by
      rw [pairForChain, chain]
      simpa [RuleChain.rulesetName] using ⟨pair, bound, rfl⟩
    obtain ⟨other, found⟩ := Option.ne_none_iff_exists'.mp found
    have spans : Spans cfg rule pair := ⟨bound, scope, inScopes, chain⟩
    have other_spans := pairForChain_spans inScopes found
    have rulesets : other.ruleset = pair.ruleset := by
      rw [pairForChain, chain] at found
      simpa using List.find?_some found
    rw [found, zones.onePair other pair other_spans spans rulesets,
      Option.map_some]

theorem ruleSelection_zone (isZone : rule.isZone = true) (side : FormSide) :
    ruleSelection rule side cfg.autoGroups cfg =
      (sideNames rule side cfg.zonePairs).map (fun name =>
        if cfg.isLocalZone name then .firewall else .zone name) ++
          endpointToSelection (rule.side side) cfg.autoGroups := by
  have notBase : ∀ chain, rule.chain ≠ .base chain := by
    intro chain same
    rw [FirewallRule.isZone, same] at isZone
    cases isZone
  rw [ruleSelection, if_neg]
  rintro (⟨_, same⟩ | ⟨_, same⟩) <;> exact notBase _ same

theorem any_isZone_ruleSelection (zones : ZonesAsWritten cfg rule)
    (isZone : rule.isZone = true) (side : FormSide) :
    (ruleSelection rule side cfg.autoGroups cfg).any EndpointEntry.isZone =
      true ↔ ∃ pair, Spans cfg rule pair ∧
        cfg.isLocalZone (pair.side side) = false := by
  rw [ruleSelection_zone isZone, List.any_append,
    (any_endpointToSelection _ _).1, Bool.or_false, List.any_map,
    List.any_eq_true]
  constructor
  · rintro ⟨name, member, zone⟩
    obtain ⟨pair, spans, rfl⟩ := (mem_sideNames zones).mp member
    refine ⟨pair, spans, ?_⟩
    by_contra isLocal
    rw [Bool.not_eq_false] at isLocal
    simp [isLocal, EndpointEntry.isZone] at zone
  · rintro ⟨pair, spans, notLocal⟩
    exact ⟨_, (mem_sideNames zones).mpr ⟨pair, spans, rfl⟩,
      by simp [notLocal, EndpointEntry.isZone]⟩

theorem any_isFirewall_ruleSelection (zones : ZonesAsWritten cfg rule)
    (isZone : rule.isZone = true) (side : FormSide) :
    (ruleSelection rule side cfg.autoGroups cfg).any
      EndpointEntry.isFirewall = true ↔ ∃ pair, Spans cfg rule pair ∧
        cfg.isLocalZone (pair.side side) = true := by
  rw [ruleSelection_zone isZone, List.any_append,
    (any_endpointToSelection _ _).2, Bool.or_false, List.any_map,
    List.any_eq_true]
  constructor
  · rintro ⟨name, member, firewall⟩
    obtain ⟨pair, spans, rfl⟩ := (mem_sideNames zones).mp member
    refine ⟨pair, spans, ?_⟩
    by_contra notLocal
    simp [notLocal, EndpointEntry.isFirewall] at firewall
  · rintro ⟨pair, spans, isLocal⟩
    exact ⟨_, (mem_sideNames zones).mpr ⟨pair, spans, rfl⟩,
      by simp [isLocal, EndpointEntry.isFirewall]⟩

/-- A side's entries resolve to its zones again. -/
theorem sideZones_ruleSelection (zones : ZonesAsWritten cfg rule)
    (isZone : rule.isZone = true) {pair : ZonePair}
    (spans : Spans cfg rule pair) (side : FormSide) :
    sideZones (ruleSelection rule side cfg.autoGroups cfg) cfg.zones =
      sideNames rule side cfg.zonePairs := by
  have unique : (sideNames rule side cfg.zonePairs).Nodup :=
    nodup_distinct _
  have firewalls := any_isFirewall_ruleSelection zones isZone side
  have named : (ruleSelection rule side cfg.autoGroups cfg).filterMap
      EndpointEntry.zoneName =
        (sideNames rule side cfg.zonePairs).filter
          fun name => !cfg.isLocalZone name := by
    rw [ruleSelection_zone isZone, List.filterMap_append,
      zoneName_endpointToSelection, List.append_nil, List.filterMap_map,
      ← List.filterMap_eq_filter]
    apply List.filterMap_congr
    intro name _
    cases isLocal : cfg.isLocalZone name <;>
      simp [isLocal, EndpointEntry.zoneName, Option.guard]
  rw [sideZones, named]
  by_cases hasLocal : ∃ pair, Spans cfg rule pair ∧
      cfg.isLocalZone (pair.side side) = true
  · obtain ⟨home, homeSpans, isLocal⟩ := hasLocal
    obtain ⟨same, found⟩ := zones.alone side home homeSpans isLocal
    have only : sideNames rule side cfg.zonePairs = [home.side side] := by
      have all : ∀ name ∈ sideNames rule side cfg.zonePairs,
          name = home.side side := by
        intro name member
        obtain ⟨other, otherSpans, rfl⟩ := (mem_sideNames zones).mp member
        exact same other otherSpans
      have member : home.side side ∈ sideNames rule side cfg.zonePairs :=
        (mem_sideNames zones).mpr ⟨home, homeSpans, rfl⟩
      match sideNames rule side cfg.zonePairs, unique, all, member with
      | [name], _, all, _ => rw [all name (by simp)]
      | first :: second :: rest, unique, all, _ =>
          have same := (all first (by simp)).trans (all second (by simp)).symm
          rw [same] at unique
          simp at unique
    have none : (sideNames rule side cfg.zonePairs).filter
        (fun name => !cfg.isLocalZone name) = [] := by
      rw [only]
      simp [isLocal]
    rw [none, if_neg (by simp), if_pos (firewalls.mpr ⟨home, homeSpans,
      isLocal⟩), only]
    obtain ⟨zone, isFound, name⟩ := Option.map_eq_some_iff.mp found
    simp [isFound, name]
  · have all : (sideNames rule side cfg.zonePairs).filter
        (fun name => !cfg.isLocalZone name) =
          sideNames rule side cfg.zonePairs := by
      rw [List.filter_eq_self]
      intro name member
      obtain ⟨other, otherSpans, rfl⟩ := (mem_sideNames zones).mp member
      by_contra isLocal
      exact hasLocal ⟨other, otherSpans, by simpa using isLocal⟩
    rw [all, if_pos]
    · exact distinct_of_nodup unique
    · exact List.ne_nil_of_mem ((mem_sideNames zones).mpr ⟨pair, spans, rfl⟩)

/-- The firewall is on one side at most, so the other names a zone. -/
theorem not_both_local (zones : ZonesAsWritten cfg rule) {pair other : ZonePair}
    (spans : Spans cfg rule pair) (spans' : Spans cfg rule other)
    (source : cfg.isLocalZone (pair.side .from) = true)
    (target : cfg.isLocalZone (other.side .to) = true) : False := by
  have fromLocal := (zones.alone .from pair spans source).2
  have toLocal := (zones.alone .to other spans' target).2
  exact zones.apart pair other spans spans'
    (Option.some.inj (fromLocal.symm.trans toLocal))

/-- The form's zone pairs for a rule stored as written are those it spans. -/
theorem zonePairsFor_ruleSelection (zones : ZonesAsWritten cfg rule)
    (isZone : rule.isZone = true) {pair : ZonePair}
    (spans : Spans cfg rule pair) :
    ∃ pairs, zonePairsFor (ruleSelection rule .from cfg.autoGroups cfg)
        (ruleSelection rule .to cfg.autoGroups cfg) cfg.zones = .ok pairs ∧
      ∀ other, other ∈ pairs ↔ Spans cfg rule other := by
  have sides := sideZones_ruleSelection zones isZone spans
  have names : ∀ side, sideNames rule side cfg.zonePairs ≠ [] := fun side =>
    List.ne_nil_of_mem ((mem_sideNames zones).mpr ⟨pair, spans, rfl⟩)
  have named : (!(ruleSelection rule .from cfg.autoGroups cfg).any
      EndpointEntry.isZone && !(ruleSelection rule .to cfg.autoGroups cfg).any
        EndpointEntry.isZone) = false := by
    by_contra unnamed
    rw [Bool.not_eq_false, Bool.and_eq_true, Bool.not_eq_true',
      Bool.not_eq_true', ← Bool.not_eq_true, ← Bool.not_eq_true,
      any_isZone_ruleSelection zones isZone,
      any_isZone_ruleSelection zones isZone] at unnamed
    refine not_both_local zones spans spans ?_ ?_
    · by_contra notLocal
      exact unnamed.1 ⟨pair, spans, by simpa using notLocal⟩
    · by_contra notLocal
      exact unnamed.2 ⟨pair, spans, by simpa using notLocal⟩
  have both : (sideNames rule .from cfg.zonePairs).filter
      (fun src => src ∈ sideNames rule .to cfg.zonePairs) = [] := by
    rw [List.filter_eq_nil_iff]
    intro src inFrom
    simp only [decide_eq_true_eq, mem_sideNames zones]
    rintro ⟨other, otherSpans, same⟩
    obtain ⟨home, homeSpans, rfl⟩ := (mem_sideNames zones).mp inFrom
    exact zones.apart home other homeSpans otherSpans same.symm
  refine ⟨(sideNames rule .from cfg.zonePairs).flatMap fun src =>
    (sideNames rule .to cfg.zonePairs).map fun dst =>
      ⟨src, dst, pairRuleset src dst⟩, ?_, ?_⟩
  · rw [zonePairsFor, named, if_neg (by simp), sides, sides]
    simp only [names, or_self, if_false, both, ne_eq, not_true_eq_false]
  · intro other
    simp only [List.mem_flatMap, List.mem_map, mem_sideNames zones]
    constructor
    · rintro ⟨_, ⟨home, homeSpans, rfl⟩, _, ⟨target, targetSpans, rfl⟩, rfl⟩
      exact zones.product home target homeSpans targetSpans
    · intro otherSpans
      refine ⟨_, ⟨other, otherSpans, rfl⟩, _, ⟨other, otherSpans, rfl⟩, ?_⟩
      obtain ⟨src, dst, ruleset⟩ := other
      rw [ZonePair.mk.injEq]
      exact ⟨rfl, rfl, (zones.own _ otherSpans).symm⟩

end Zones

/-! ## Saving it back -/

/-- The policy choice the form shows for a rule. -/
def Represents (cfg : FirewallConfig) (rule : FirewallRule) :
    Option RulePolicyChoice → Prop
  | none => rule.policy = none ∧ rule.protocol = none
  | some .ping => rule.policy = none ∧ rule.protocol = some "icmp"
  | some (.policy name protocol) => rule.policy = some name ∧
      rule.protocol = some protocol.text ∧
      ∃ policy ∈ cfg.policies, policy.name = name

/-- A rule stored the way the console writes it: the seeds of its scope are in
place, and so are its zones and sides. -/
structure StoredByConsole (cfg : FirewallConfig) (rule : FirewallRule) :
    Prop where
  setup : ∀ chain, rule.chain = .base chain → chain ≠ .forward →
    (cfg.setup chain).baseline = true ∧
      (cfg.setup chain).defaultAction ≠ none
  logged : rule.chain = .base .forward → rule.log = true →
    (cfg.setup .forward).baseline = true
  zones : rule.isZone = true → ZonesAsWritten cfg rule
  sides : ∀ side, StoredAsWritten cfg.autoGroups (rule.side side)

/-- The update the form submits when nothing is edited. -/
def FirewallRule.update (rule : FirewallRule) (action : RuleAction)
    (choice : Option RulePolicyChoice) (cfg : FirewallConfig) : RuleUpdate :=
  { rule := rule.rule
    name := rule.name
    action := action
    source := ruleSelection rule .from cfg.autoGroups cfg
    target := ruleSelection rule .to cfg.autoGroups cfg
    policy := choice
    enabled := rule.enabled
    log := rule.log
    ips := rule.ips }

theorem leafWrites_same {chains : List RuleChain} {rule : Nat} {leaf : Path}
    {live : RuleChain → Option String} {desired : Option String}
    (same : ∀ chain ∈ chains, live chain = desired) :
    leafWrites chains rule leaf live desired = [] := by
  rw [leafWrites, List.flatMap_eq_nil_iff]
  intro chain member
  rw [if_pos (same chain member).symm]

theorem flagWrites_same {chains : List RuleChain} {rule : Nat} {leaf : String}
    {live : RuleChain → Bool} {desired : Bool}
    (same : ∀ chain ∈ chains, live chain = desired) :
    flagWrites chains rule leaf live desired = [] := by
  rw [flagWrites, List.flatMap_eq_nil_iff]
  intro chain member
  rw [if_pos (same chain member).symm]

section Saving

variable {locale : Locale} {root : Cfg} {rule : FirewallRule}

theorem ruleSelection_places (rule : FirewallRule) (cfg : FirewallConfig)
    (side : FormSide) :
    ∃ places, Places places ∧ ruleSelection rule side cfg.autoGroups cfg =
      places ++ endpointToSelection (rule.side side) cfg.autoGroups := by
  rw [ruleSelection]
  split
  · exact ⟨[.firewall], by simp [Places], rfl⟩
  · exact ⟨_, places_sideEntries cfg _, rfl⟩

/-- Saved unchanged, a rule stays where it is. -/
theorem placeRule_update
    (member : rule ∈ (fetchFirewall locale root).rules)
    (stored : StoredByConsole (fetchFirewall locale root) rule)
    (action : RuleAction) (choice : Option RulePolicyChoice) :
    ∃ pairs chains,
      zonePairsFor
          (rule.update action choice (fetchFirewall locale root)).source
          (rule.update action choice (fetchFirewall locale root)).target
          (fetchFirewall locale root).zones = .ok pairs ∧
      placeRule locale (some rule)
          (rule.update action choice (fetchFirewall locale root))
          (fetchFirewall locale root) =
        .ok ⟨pairs, chains, false, rule.rule⟩ ∧
      (∀ pair, pair ∈ pairs ↔ Spans (fetchFirewall locale root) rule pair) ∧
      (∀ chain, chain ∈ chains ↔ ∃ scope ∈ rule.scopes, scope.chain = chain) ∧
      (pairs = [] → chains = [rule.chain]) := by
  generalize cfgEq : fetchFirewall locale root = cfg at stored ⊢
  rcases scopes_fetchFirewall member with ⟨chain, atChain, single⟩ |
    ⟨⟨ruleset, atChain⟩, proper, named⟩
  · have atBase : _ ∧ placeRule locale (some rule)
        (rule.update action choice cfg) cfg = _ :=
      placeRule_base atChain single rfl rfl rfl
    obtain ⟨pairs, placed⟩ := atBase
    refine ⟨[], _, pairs, placed, ?_, by simp [single, eq_comm], ?_⟩
    · intro pair
      simp [Spans, single]
    · simp [atChain]
  · have isZone : rule.isZone = true := by
      rw [FirewallRule.isZone, atChain]
      rfl
    have zones := stored.zones isZone
    have bound : ∀ scope ∈ rule.scopes, ∃ pair, Spans cfg rule pair ∧
        scope.chain = .name pair.ruleset := by
      intro scope inScopes
      obtain ⟨other, chain⟩ := named scope inScopes
      obtain ⟨pair, inPairs, rfl⟩ := bound_scope member inScopes chain
      exact ⟨pair, ⟨cfgEq ▸ inPairs, scope, inScopes, chain⟩, chain⟩
    obtain ⟨scope, inScopes⟩ := List.exists_mem_of_ne_nil _ proper
    obtain ⟨pair, spans, _⟩ := bound scope inScopes
    obtain ⟨pairs, resolved, spanned⟩ :=
      zonePairsFor_ruleSelection zones isZone spans
    have some : pairs ≠ [] :=
      List.ne_nil_of_mem ((spanned pair).mpr spans)
    have firewalls : ((ruleSelection rule .from cfg.autoGroups cfg).any
        EndpointEntry.isFirewall && (ruleSelection rule .to cfg.autoGroups
          cfg).any EndpointEntry.isFirewall) = false := by
      by_contra both
      rw [Bool.not_eq_false, Bool.and_eq_true,
        any_isFirewall_ruleSelection zones isZone,
        any_isFirewall_ruleSelection zones isZone] at both
      obtain ⟨⟨home, homeSpans, source⟩, other, otherSpans, target⟩ := both
      exact not_both_local zones homeSpans otherSpans source target
    refine ⟨pairs, locale.sortBy RuleChain.text (pairs.map fun pair =>
      .name pair.ruleset), resolved, ?_, spanned, ?_, fun none =>
        absurd none some⟩
    · have chains : ruleChainsFor locale
          (ruleSelection rule .from cfg.autoGroups cfg)
          (ruleSelection rule .to cfg.autoGroups cfg) cfg.zones =
          .ok (locale.sortBy RuleChain.text (pairs.map fun pair =>
            .name pair.ruleset)) := by
        rw [ruleChainsFor, firewalls, resolved]
        simp [some, pure, Except.pure]
      rw [placeRule]
      simp only [FirewallRule.update, resolved, chains, ok_bind]
      simp [some, isZone, pure, Except.pure]
    · intro chain
      rw [(sortBy_perm _ _ _).mem_iff, List.mem_map]
      constructor
      · rintro ⟨other, inPairs, rfl⟩
        exact ((spanned other).mp inPairs).2
      · rintro ⟨copy, inCopies, rfl⟩
        obtain ⟨other, otherSpans, chain⟩ := bound copy inCopies
        exact ⟨other, (spanned other).mpr otherSpans, chain.symm⟩

/-- What parsing settles of a rule's own fields. -/
theorem parsed_rule (member : rule ∈ (fetchFirewall locale root).rules) :
    Trim rule.name ∧ (rule.ips = true → rule.action = some .accept) ∧
      ∀ side, (rule.side side).Parsed := by
  obtain ⟨chain, key, cfg, same⟩ := exists_parseRule member
  rw [same]
  refine ⟨trim_childStr cfg "description", ?_, ?_⟩
  · intro ips
    simp only [parseRule, decide_eq_true_eq] at ips ⊢
    rw [if_pos ips]
  · intro side
    cases side <;> exact parsed_parseEndpoint cfg _

/-- No scope is given up or taken, and the seeds are there. -/
theorem diffScopes_update (member : rule ∈ (fetchFirewall locale root).rules)
    (stored : StoredByConsole (fetchFirewall locale root) rule)
    {pairs : List ZonePair} {chains : List RuleChain}
    (spanned : ∀ pair, pair ∈ pairs ↔
      Spans (fetchFirewall locale root) rule pair)
    (kept : ∀ chain, chain ∈ chains ↔
      chain ∈ rule.scopes.map RuleScope.chain)
    (base : pairs = [] → chains = [rule.chain]) :
    diffScopes (some rule) ⟨pairs, chains, false, rule.rule⟩
      (fetchFirewall locale root) = [] := by
  have dropped : (rule.scopes.map RuleScope.chain).flatMap (fun chain =>
      if chain ∈ chains then []
      else .delete (ruleBase chain rule.rule) :: emptyPairCleanup
        (fetchFirewall locale root) chain [rule.rule]) = [] := by
    rw [List.flatMap_eq_nil_iff]
    intro chain live
    rw [if_pos ((kept chain).mpr live)]
  simp only [diffScopes, Bool.false_eq_true, if_false, Option.map_some,
    Option.getD_some, dropped, List.nil_append]
  split
  · rename_i spans
    obtain ⟨pair, inPairs⟩ := List.exists_mem_of_ne_nil _ spans
    have isZone : rule.isZone = true := by
      obtain ⟨_, scope, inScopes, chain⟩ := (spanned pair).mp inPairs
      rcases scopes_fetchFirewall member with ⟨base, _, single⟩ |
        ⟨⟨ruleset, atChain⟩, _⟩
      · rw [single, List.mem_singleton] at inScopes
        rw [inScopes] at chain
        cases chain
      · rw [FirewallRule.isZone, atChain]
        rfl
    have zones := stored.zones isZone
    rw [ensureStatePolicy, if_pos zones.state, List.nil_append,
      List.flatMap_eq_nil_iff]
    intro other inPairs
    rw [ensureZonePair, if_pos]
    exact List.any_eq_true.mpr
      ⟨other, ((spanned other).mp inPairs).1, by simp⟩
  · rename_i none
    have atChain : RulePlacement.chain ⟨pairs, chains, false, rule.rule⟩ =
        rule.chain := by
      rw [RulePlacement.chain, base (not_not.mp none)]
      rfl
    rw [atChain]
    split
    · rfl
    · rfl
    · rename_i chain notForward atBase
      obtain ⟨baseline, default⟩ := stored.setup chain atBase fun same =>
        notForward (same ▸ rfl)
      simp [ensureChainSetup, baseline, default]

theorem chain_of_forward (member : rule ∈ (fetchFirewall locale root).rules)
    {chains : List RuleChain} (kept : ∀ chain, chain ∈ chains ↔
      chain ∈ rule.scopes.map RuleScope.chain)
    (atForward : chains.headD (.base .forward) = .base .forward) :
    rule.chain = .base .forward := by
  rcases scopes_fetchFirewall member with ⟨chain, atChain, single⟩ |
    ⟨_, proper, named⟩
  · have inChains := (kept (.base chain)).mpr (by simp [single])
    rw [atChain, ← atForward]
    cases chains with
    | nil => simp at inChains
    | cons head rest =>
        have inScopes := (kept head).mp (by simp)
        simp only [single, List.map_cons, List.map_nil,
          List.mem_singleton] at inScopes
        exact inScopes.symm
  · exfalso
    obtain ⟨scope, inScopes⟩ := List.exists_mem_of_ne_nil _ proper
    have present := (kept scope.chain).mpr (List.mem_map_of_mem inScopes)
    cases chains with
    | nil => simp at present
    | cons head rest =>
        obtain ⟨copy, inCopies, same⟩ :=
          List.mem_map.mp ((kept head).mp (by simp))
        obtain ⟨ruleset, chain⟩ := named copy inCopies
        rw [← same, chain] at atForward
        cases atForward

theorem diffAction_update {action : RuleAction} {place : RulePlacement}
    {update : RuleUpdate} (sameAction : update.action = action)
    (sameIps : update.ips = rule.ips) (acts : rule.action = some action)
    (ips : rule.ips = true → rule.action = some .accept)
    (body : ∀ chain ∈ place.chains, bodyAt (some rule) chain = some rule) :
    diffAction (some rule) place update = [] := by
  have want : update.wantIps = rule.ips := by
    rw [RuleUpdate.wantIps, sameIps, sameAction]
    cases inspected : rule.ips with
    | false => rfl
    | true =>
        have accepts := ips inspected
        rw [acts, Option.some.injEq] at accepts
        simp [accepts]
  rw [diffAction, leafWrites_same, List.nil_append, List.flatMap_eq_nil_iff]
  · intro chain inChains
    simp only [body chain inChains, Option.any_some, want]
    cases rule.ips <;> rfl
  · intro chain inChains
    simp only [body chain inChains, Option.bind_some, wireAction, acts, want,
      sameAction, Option.map_some]

theorem diffPolicyMatch_update {cfg : FirewallConfig}
    {choice : Option RulePolicyChoice} {place : RulePlacement}
    {update : RuleUpdate} (represents : Represents cfg rule choice)
    (samePolicy : update.policy = choice)
    (body : ∀ chain ∈ place.chains, bodyAt (some rule) chain = some rule) :
    diffPolicyMatch (some rule) place update cfg = [] := by
  have policy : update.policy.bind RulePolicyChoice.policyName =
      rule.policy := by
    rw [samePolicy]
    match choice, represents with
    | none, represents => exact represents.1.symm
    | some .ping, represents => exact represents.1.symm
    | some (.policy _ _), represents => exact represents.1.symm
  have protocol : update.policy.map RulePolicyChoice.protocolText =
      rule.protocol := by
    rw [samePolicy]
    match choice, represents with
    | none, represents => exact represents.2.symm
    | some .ping, represents => exact represents.2.symm
    | some (.policy _ _), represents => exact represents.2.1.symm
  have seeded : ∀ name, rule.policy = some name → seedPolicy cfg name = [] := by
    intro name same
    have known : ∃ policy ∈ cfg.policies, policy.name = name := by
      match choice, represents with
      | none, represents => simp [represents.1] at same
      | some .ping, represents => simp [represents.1] at same
      | some (.policy _ _), represents =>
          obtain ⟨named, _, policy, inPolicies, called⟩ := represents
          rw [named, Option.some.injEq] at same
          exact ⟨policy, inPolicies, called.trans same⟩
    obtain ⟨policy, inPolicies, called⟩ := known
    rw [seedPolicy, if_pos]
    exact List.any_eq_true.mpr ⟨policy, inPolicies, by simpa using called⟩
  rw [diffPolicyMatch, policy, protocol, leafWrites_same, leafWrites_same]
  · cases named : rule.policy with
    | none => rfl
    | some name => simpa using seeded name named
  · intro chain inChains
    rw [body chain inChains]
    rfl
  · intro chain inChains
    rw [body chain inChains]
    rfl

theorem diffFlags_update {cfg : FirewallConfig} {place : RulePlacement}
    {update : RuleUpdate} (sameEnabled : update.enabled = rule.enabled)
    (sameLog : update.log = rule.log)
    (body : ∀ chain ∈ place.chains, bodyAt (some rule) chain = some rule)
    (logged : rule.log = true → place.chain = .base .forward →
      (cfg.setup .forward).baseline = true) :
    diffFlags (some rule) place update cfg = [] := by
  rw [diffFlags, flagWrites_same, flagWrites_same]
  · split
    · rename_i logs
      rw [sameLog, Bool.and_eq_true, decide_eq_true_eq] at logs
      rw [ensureForwardBaseline, if_pos (logged logs.1 logs.2)]
      rfl
    · rfl
  · intro chain inChains
    rw [body chain inChains, sameLog]
    rfl
  · intro chain inChains
    rw [body chain inChains, sameEnabled]
    rfl

end Saving

/-- A rule of two zone pairs whose From side is an auto group. -/
def pairedConfig : Cfg :=
  let accept := .node [("action", .value "accept")]
  let binding := fun ruleset => .node [("firewall", .node
    [("name", .value ruleset)])]
  let copy := .node [("action", .value "queue"), ("protocol", .value "tcp"),
    ("source", .node [("group", .node
      [("address-group", .value "QZ-R30-FROM")])]),
    ("destination", .node [("group", .node [("port-group", .value "WEB")])])]
  .node [("firewall", .node
    [("global-options", .node [("state-policy", .node
      [("established", accept), ("related", accept)])]),
    ("group", .node
      [("address-group", .node [("QZ-R30-FROM", .node
        [("description", .value "[qz-rule]"), ("include", .value "SERVERS"),
          ("address", .value "10.0.0.7")])]),
      ("port-group", .node [("WEB", .node
        [("description", .value "[tcp]"), ("port", .value "80")])])]),
    ("ipv4", .node [("name", .node
      [("QZ-Z-DMZ-TO-WAN", .node [("rule", .node [("30", copy)])]),
        ("QZ-Z-LAN-TO-WAN", .node [("rule", .node [("30", copy)])])])]),
    ("zone", .node [("WAN", .node [("from", .node
      [("LAN", binding "QZ-Z-LAN-TO-WAN"),
        ("DMZ", binding "QZ-Z-DMZ-TO-WAN")])])])])]

def pairedCfg : FirewallConfig := fetchFirewall codepoints pairedConfig

theorem pairedCfg_rules : pairedCfg.rules ≠ [] :=
  List.ne_nil_of_length_pos (by decide +kernel)

def pairedRule : FirewallRule := pairedCfg.rules.head pairedCfg_rules

theorem storedAsWritten_of_none {autoGroups : List AutoGroup}
    {endpoint : RuleEndpoint}
    (noGroup : findAuto autoGroups endpoint.groupType endpoint.groupName = none)
    (noIface : endpoint.ifaceGroup = none) :
    StoredAsWritten autoGroups endpoint := by
  constructor
  case interfaces =>
    rw [noIface]
    rintro auto found
    cases found
  all_goals simp [noGroup, noIface]

theorem pairedRule_zones : ZonesAsWritten pairedCfg pairedRule := by
  have pairs : pairedCfg.zonePairs = [⟨"LAN", "WAN", "QZ-Z-LAN-TO-WAN"⟩,
      ⟨"DMZ", "WAN", "QZ-Z-DMZ-TO-WAN"⟩] := by decide +kernel
  have spanned : ∀ {pair}, Spans pairedCfg pairedRule pair →
      pair = ⟨"LAN", "WAN", "QZ-Z-LAN-TO-WAN"⟩ ∨
        pair = ⟨"DMZ", "WAN", "QZ-Z-DMZ-TO-WAN"⟩ := by
    intro pair spans
    simpa [pairs] using spans.1
  have remote : ∀ pair ∈ pairedCfg.zonePairs,
      pairedCfg.isLocalZone pair.src = false ∧
        pairedCfg.isLocalZone pair.dst = false := by decide +kernel
  have lan : Spans pairedCfg pairedRule
      ⟨"LAN", "WAN", pairRuleset "LAN" "WAN"⟩ := by
    unfold Spans
    decide +kernel
  have dmz : Spans pairedCfg pairedRule
      ⟨"DMZ", "WAN", pairRuleset "DMZ" "WAN"⟩ := by
    unfold Spans
    decide +kernel
  constructor
  · decide +kernel
  · intro pair spans
    rcases spanned spans with rfl | rfl <;> decide +kernel
  · intro pair other spans spans' same
    rcases spanned spans with rfl | rfl <;>
      rcases spanned spans' with rfl | rfl <;> simp_all
  · intro pair other spans spans'
    rcases spanned spans with rfl | rfl <;>
      rcases spanned spans' with rfl | rfl <;> first | exact lan | exact dmz
  · intro pair other spans spans'
    rcases spanned spans with rfl | rfl <;>
      rcases spanned spans' with rfl | rfl <;> decide
  · intro side pair spans isLocal
    have away := remote pair spans.1
    cases side <;> simp_all [ZonePair.side]

theorem pairedRule_stored : StoredByConsole pairedCfg pairedRule := by
  have named : pairedRule.chain.isBaseChain = false := by decide +kernel
  have notBase : ∀ chain, pairedRule.chain ≠ .base chain := by
    intro chain same
    rw [same] at named
    cases named
  refine ⟨fun chain same => absurd same (notBase chain),
    fun same => absurd same (notBase _), fun _ => pairedRule_zones, ?_⟩
  intro side
  match side with
  | .to =>
      exact storedAsWritten_of_none (by decide +kernel) (by decide +kernel)
  | .from =>
      have group : findAuto pairedCfg.autoGroups
          (pairedRule.side .from).groupType (pairedRule.side .from).groupName =
            some ⟨"QZ-R30-FROM", "address-group", ["SERVERS"], [],
              ["10.0.0.7"]⟩ := by decide +kernel
      have noIface : (pairedRule.side .from).ifaceGroup = none := by
        decide +kernel
      constructor
      · rintro auto found
        rw [group] at found
        cases found
        decide
      · rintro auto found type known value member
        rw [group] at found
        cases found
        have host : type = .host := by
          revert type
          decide
        rw [List.mem_singleton] at member
        subst host member
        decide +kernel
      · rintro auto found
        rw [group] at found
        cases found
        decide
      · rw [noIface]
        rintro auto found
        cases found
      · exact .inr noIface

/-- A rule of the input chain without the baseline the console seeds. -/
def unseededCfg : FirewallConfig :=
  fetchFirewall codepoints (.node [("firewall", .node [("ipv4", .node
    [("input", .node [("filter", .node [("rule", .node
      [("10", .node [("action", .value "accept")])])])])])])])

theorem unseededCfg_rules : unseededCfg.rules ≠ [] :=
  List.ne_nil_of_length_pos (by decide +kernel)

def unseededRule : FirewallRule := unseededCfg.rules.head unseededCfg_rules

end QuartzFire.Firewall
