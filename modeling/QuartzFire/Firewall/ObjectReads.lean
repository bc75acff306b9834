import QuartzFire.Foundation.ConfigRecord
import QuartzFire.Foundation.Register
import QuartzFire.Firewall.Markers
import QuartzFire.Firewall.Effects

/-!
# Aliases, policies and zones by their paths

Each object of the lists is what is read at its path.  The commands for a field
make it hold what is desired, and delete only what is there; an object whose
path nothing is written at is listed as before.
-/

namespace QuartzFire.Firewall

open ConfigTree

/-! ## Fields -/

section Fields

variable {kinds : Kinds String} {path : Path} {start : Option Cfg}

theorem yields_leafDiff (field : FieldAt kinds path .single)
    (live desired : Option String) :
    Yields kinds path start
      (· = if desired = live then start else desired.map .value)
      (leafDiff path live desired) := by
  obtain ⟨base, key, rfl, nodes, isSingle⟩ := field.split
  unfold leafDiff
  split
  · exact .nil rfl
  · cases desired with
    | none => exact .clear (by simp)
    | some text => exact .write nodes isSingle text

/-- The leaf is deleted only where it holds something. -/
theorem targets_leafDiff {live desired : Option String}
    (there : desired = none → live.isSome = true → start.isSome = true) :
    Targets kinds path start (leafDiff path live desired) := by
  unfold leafDiff
  split
  · exact .ofSets (by simp)
  · rename_i differs
    cases desired with
    | none =>
        refine .clear (there rfl ?_)
        exact Option.isSome_iff_ne_none.mpr fun none => differs none.symm
    | some text => exact .ofSets (by simp [QuartzFire.Command.isSet])

theorem yields_flagDiff (field : FieldAt kinds path .valueless)
    (desired : Bool) :
    Yields kinds path start (·.isSome = desired)
      (flagDiff path start.isSome desired) := by
  obtain ⟨base, key, rfl, nodes, isValueless⟩ := field.split
  unfold flagDiff
  split
  · rename_i same
    exact .nil same.symm
  · cases desired with
    | true =>
        refine (Yields.raise nodes isValueless).mono ?_
        rintro _ rfl
        rfl
    | false =>
        refine (Yields.clear (by simp)).mono ?_
        rintro _ rfl
        rfl

theorem targets_flagDiff (desired : Bool) :
    Targets kinds path start (flagDiff path start.isSome desired) := by
  unfold flagDiff
  split
  · exact .ofSets (by simp)
  · rename_i differs
    cases desired with
    | true => exact .ofSets (by simp [QuartzFire.Command.isSet])
    | false => exact .clear (Bool.eq_true_of_not_eq_false fun no =>
        differs no.symm)

theorem valueSet_of_field (field : FieldAt kinds path .multi) :
    ValueSet kinds path fun leaf text => text ∈ leafValues leaf := by
  obtain ⟨base, key, rfl, nodes, isMulti⟩ := field.split
  exact .ofMulti nodes isMulti

theorem yields_diffLeaf (field : FieldAt kinds path .multi)
    (desired : List String) :
    Yields kinds path start
      (fun after => ∀ text, text ∈ leafValues after ↔ text ∈ desired)
      (diffLeaf path (leafValues start) desired) := by
  refine ((valueSet_of_field field).exchange _ _).mono fun after held text => ?_
  rw [held, List.mem_filter, List.mem_filter, decide_eq_true_eq,
    decide_eq_true_eq]
  tauto

theorem targets_diffLeaf (field : FieldAt kinds path .multi)
    (distinct : (leafValues start).Nodup) (desired : List String) :
    Targets kinds path start (diffLeaf path (leafValues start) desired) := by
  refine .exchange (valueSet_of_field field) _ (distinct.filter _) ?_
  intro text member
  exact (List.mem_filter.mp member).1

/-- A device renders no value twice. -/
theorem nodup_leafValues {root : Cfg} (conforms : Conforms kinds root)
    (path : Path) : (leafValues (subtree path root)).Nodup := by
  cases found : subtree path root with
  | none => exact List.nodup_nil
  | some leaf =>
      by_cases proper : path = []
      · subst proper
        cases found
        rw [conforms.isNode]
        exact List.nodup_nil
      · have fits := fits_at conforms proper found
        cases fits with
        | one _ | single _ => exact List.nodup_singleton _
        | several _ distinct => exact distinct
        | valueless _ | node _ _ _ => exact List.nodup_nil

/-- The text of a leaf that is written where it differs. -/
theorem textAt_written {root after : Cfg} {live desired : Option String}
    (trims : desired.bind trimmed = desired)
    (written : subtree path after = if desired = live then subtree path root
      else desired.map .value) :
    textAt path after = if desired = live then textAt path root
      else desired := by
  by_cases same : desired = live
  · rw [if_pos same] at written ⊢
    exact textAt_congr written
  · rw [if_neg same] at written ⊢
    cases desired with
    | none => rw [textAt, written, Option.map_none]
    | some text => rw [textAt_of_value written, ← trims, Option.bind_some]

theorem trimmed_textAt (path : Path) (root : Cfg) :
    (textAt path root).bind trimmed = textAt path root := by
  cases read : textAt path root with
  | none => rfl
  | some text =>
      rw [textAt] at read
      split at read
      · rw [Option.bind_some]
        exact trimmed_trimmed read
      · cases read

theorem leafDiff_self (path : Path) (live : Option String) :
    leafDiff path live live = [] :=
  if_pos rfl

theorem flagDiff_self (path : Path) (live : Bool) :
    flagDiff path live live = [] :=
  if_pos rfl

theorem diffLeaf_of_same {live desired : List String}
    (same : ∀ text, text ∈ live ↔ text ∈ desired) :
    diffLeaf path live desired = [] := by
  have added : desired.filter (· ∉ live) = [] := by
    simp [List.filter_eq_nil_iff, same]
  have removed : live.filter (· ∉ desired) = [] := by
    simp [List.filter_eq_nil_iff, same]
  rw [diffLeaf, added, removed]
  rfl

/-! ### What a new object writes -/

theorem isSet_leafDiff {desired : Option String} :
    ∀ command ∈ leafDiff path none desired, command.isSet = true := by
  intro command member
  unfold leafDiff at member
  cases desired with
  | none => cases member
  | some text =>
      rw [if_neg (by simp), List.mem_singleton] at member
      subst member
      rfl

theorem isSet_flagDiff {desired : Bool} :
    ∀ command ∈ flagDiff path false desired, command.isSet = true := by
  intro command member
  cases desired with
  | false => cases member
  | true =>
      rw [flagDiff, if_neg (by simp), if_pos rfl, List.mem_singleton] at member
      subst member
      rfl

theorem isSet_diffLeaf {desired : List String} :
    ∀ command ∈ diffLeaf path [] desired, command.isSet = true := by
  intro command member
  rw [diffLeaf, List.filter_nil, List.map_nil, List.append_nil] at member
  obtain ⟨text, _, rfl⟩ := List.mem_map.mp member
  rfl

theorem orNode_eq_withNode (base : Path) (isNew : Bool)
    (body : List VyosCommand) :
    orNode base isNew body = withNode base isNew body := by
  have same : body.any Command.isSet = body.any QuartzFire.Command.isSet :=
    List.any_congr rfl fun command => by cases command <;> rfl
  unfold orNode withNode
  rw [same]
  simp only [Bool.and_eq_true, Bool.not_eq_true']

end Fields

/-! ## Objects read by path -/

/-- The leaves of the objects, and nodes around them. -/
structure ObjectSchema (kinds : Kinds String) : Prop where
  group : ∀ node name, NodePath kinds (groupPath node name)
  aliasFields : ∀ (type : AliasType) name,
    Shaped (kinds.below (groupPath type.node name))
      [(["description"], .single), ([type.memberLeaf], .multi)]
  policyFields : ∀ name,
    Shaped (kinds.below (FirewallPolicy.policyBase name))
      [(["description"], .single), (["port"], .multi)]
  zone : ∀ name, NodePath kinds (zoneBase name)
  zoneFields : ∀ name, Shaped (kinds.below (zoneBase name))
    [(["description"], .single), (["local-zone"], .valueless),
      (["member", "interface"], .multi), (["default-action"], .single),
      (["default-log"], .valueless),
      (["intra-zone-filtering", "action"], .single)]

/-- A group has the mark of the rule editor. -/
def ownedAt (root : Cfg) (node name : String) : Bool :=
  (textAt (groupPath node name ++ ["description"]) root).any
    (startsWith · autoMark)

def aliasAt (root : Cfg) (place : AliasType × String) : FirewallAlias :=
  let base := groupPath place.1.node place.2
  let shown := decodeAliasDescription place.2
    (textAt (base ++ ["description"]) root)
  { name := place.2
    display := shown.1
    type := place.1
    description := shown.2
    members := leafValues (subtree (base ++ [place.1.memberLeaf]) root) }

def autoGroupAt (root : Cfg) (place : String × String) : AutoGroup :=
  let values := fun leaf =>
    leafValues (subtree (groupPath place.1 place.2 ++ [leaf]) root)
  { name := place.2
    node := place.1
    includes := values "include"
    interfaces := values "interface"
    members := ((autoMemberLeaf place.1).map values).getD [] }

def policyAt (root : Cfg) (name : String) : FirewallPolicy :=
  let base := FirewallPolicy.policyBase name
  let shown := decodePolicyDescription (textAt (base ++ ["description"]) root)
  { name := name
    protocol := shown.1
    ports := leafValues (subtree (base ++ ["port"]) root)
    description := shown.2 }

def zoneAt (root : Cfg) (name : String) : FirewallZone :=
  let base := zoneBase name
  let shown := decodeAliasDescription name
    (textAt (base ++ ["description"]) root)
  { name := name
    display := shown.1
    description := shown.2
    isLocal := (subtree (base ++ ["local-zone"]) root).isSome
    interfaces := leafValues (subtree (base ++ ["member", "interface"]) root)
    defaultAction := asZoneDefault (textAt (base ++ ["default-action"]) root)
    defaultLog := (subtree (base ++ ["default-log"]) root).isSome
    intraZone := asAction
      (textAt (base ++ ["intra-zone-filtering", "action"]) root) }

section Reading

variable {kinds : Kinds String} {root : Cfg}

theorem childList_eq (cfg : Cfg) (leaf : String) :
    childList cfg leaf = leafValues (subtree [leaf] cfg) := by
  rw [subtree_singleton, childList]
  cases cfg.child leaf with
  | none => rfl
  | some tree => cases tree <;> rfl

theorem childList_eq_below {path : Path} {cfg : Cfg}
    (found : subtree path root = some cfg) (leaf : String) :
    childList cfg leaf = leafValues (subtree (path ++ [leaf]) root) := by
  rw [childList_eq, subtree_append, found, Option.bind_some]

theorem childStr_eq_below {path : Path} {cfg : Cfg}
    (found : subtree path root = some cfg) (leaf : String) :
    childStr cfg leaf = textAt (path ++ [leaf]) root := by
  rw [childStr_eq_textAt, textAt_below found]

theorem mem_group_entries (conforms : Conforms kinds root)
    {node name : String} {cfg : Cfg} :
    (name, cfg) ∈ (childNode (childNode (fetchFirewallConfig root) "group")
        node).entries ↔ subtree (groupPath node name) root = some cfg := by
  rw [fetchFirewallConfig, childNode_eq_nodeAt root, childNode_nodeAt,
    childNode_nodeAt]
  exact mem_nodeAt_entries conforms (by simp)

theorem mem_zone_entries (conforms : Conforms kinds root) {name : String}
    {cfg : Cfg} :
    (name, cfg) ∈ (childNode (fetchFirewallConfig root) "zone").entries ↔
      subtree (zoneBase name) root = some cfg := by
  rw [fetchFirewallConfig, childNode_eq_nodeAt root, childNode_nodeAt]
  exact mem_nodeAt_entries conforms (by simp)

variable (locale : Locale)

theorem reads_aliases (conforms : Conforms kinds root) :
    Reads (fun known : FirewallAlias => (known.type, known.name))
      (fun place =>
        (subtree (groupPath place.1.node place.2) root).isSome = true ∧
          ownedAt root place.1.node place.2 = false)
      (aliasAt root) (fetchFirewall locale root).aliases where
  keyed place := rfl
  mem known := by
    refine mem_parseAliases.trans ?_
    simp only [mem_group_entries conforms]
    constructor
    · rintro ⟨cfg, found, shown, reads, members⟩
      rw [childStr_eq_below found] at shown reads
      rw [childList_eq_below found] at members
      refine ⟨⟨by rw [found]; rfl, shown⟩, ?_⟩
      simp only [aliasAt, reads, ← members]
    · rintro ⟨⟨there, shown⟩, same⟩
      obtain ⟨cfg, found⟩ := Option.isSome_iff_exists.mp there
      refine ⟨cfg, found, ?_, ?_, ?_⟩
      · rw [childStr_eq_below found]
        exact shown
      · rw [childStr_eq_below found, ← same]
        rfl
      · rw [childList_eq_below found, ← same]
        rfl

theorem reads_autoGroups (conforms : Conforms kinds root) :
    Reads (fun auto : AutoGroup => (auto.node, auto.name))
      (fun place => (∃ type : AliasType, type.node = place.1) ∧
        (subtree (groupPath place.1 place.2) root).isSome = true ∧
          ownedAt root place.1 place.2 = true)
      (autoGroupAt root) (fetchFirewall locale root).autoGroups where
  keyed place := rfl
  mem auto := by
    have read : ∀ {node name cfg},
        subtree (groupPath node name) root = some cfg →
        autoGroupAt root (node, name) =
          ⟨name, node, childList cfg "include", childList cfg "interface",
            ((autoMemberLeaf node).map (childList cfg)).getD []⟩ := by
      intro node name cfg found
      have lists := childList_eq_below found
      simp only [autoGroupAt, ← lists]
    show auto ∈ parseAutoGroups _ ↔ _
    simp only [parseAutoGroups, List.mem_flatMap, List.mem_filterMap,
      Prod.exists, mem_group_entries conforms]
    constructor
    · rintro ⟨type, _, name, cfg, found, made⟩
      rw [Option.ite_none_right_eq_some, childStr_eq_below found] at made
      obtain ⟨owned, made⟩ := made
      cases made
      exact ⟨⟨⟨type, rfl⟩, by rw [found]; rfl, owned⟩, read found⟩
    · rintro ⟨⟨⟨type, isNode⟩, there, owned⟩, same⟩
      obtain ⟨cfg, found⟩ := Option.isSome_iff_exists.mp there
      refine ⟨type, by cases type <;> decide, auto.name, cfg, ?_, ?_⟩
      · rw [isNode, found]
      · rw [ownedAt] at owned
        rw [childStr_eq_below found, isNode, if_pos owned, ← read found, same]

theorem reads_policies (conforms : Conforms kinds root) :
    Reads FirewallPolicy.name
      (fun name =>
        (subtree (FirewallPolicy.policyBase name) root).isSome = true)
      (policyAt root) (fetchFirewall locale root).policies where
  keyed place := rfl
  mem policy := by
    show policy ∈ parsePolicies _ _ ↔ _
    rw [parsePolicies, (sortBy_perm _ _ _).mem_iff]
    simp only [List.mem_map, Prod.exists, mem_group_entries conforms]
    have read : ∀ {name cfg},
        subtree (groupPath "port-group" name) root = some cfg →
        policyAt root name =
          ⟨name, (decodePolicyDescription (childStr cfg "description")).1,
            childList cfg "port",
            (decodePolicyDescription (childStr cfg "description")).2⟩ := by
      intro name cfg found
      rw [childStr_eq_below found, childList_eq_below found]
      rfl
    constructor
    · rintro ⟨name, cfg, found, rfl⟩
      exact ⟨by rw [FirewallPolicy.policyBase, found]; rfl, read found⟩
    · rintro ⟨there, same⟩
      obtain ⟨cfg, found⟩ := Option.isSome_iff_exists.mp there
      exact ⟨policy.name, cfg, found, (read found).symm.trans same⟩

theorem reads_zones (conforms : Conforms kinds root) :
    Reads FirewallZone.name
      (fun name => (subtree (zoneBase name) root).isSome = true)
      (zoneAt root) (fetchFirewall locale root).zones where
  keyed place := rfl
  mem zone := by
    show zone ∈ parseZones _ _ ↔ _
    rw [parseZones, (sortBy_perm _ _ _).mem_iff]
    simp only [List.mem_map, Prod.exists, mem_zone_entries conforms]
    have read : ∀ {name cfg}, subtree (zoneBase name) root = some cfg →
        zoneAt root name =
          { name := name
            display := (decodeAliasDescription name
              (childStr cfg "description")).1
            description := (decodeAliasDescription name
              (childStr cfg "description")).2
            isLocal := has cfg "local-zone"
            interfaces := childList (childNode cfg "member") "interface"
            defaultAction := asZoneDefault (childStr cfg "default-action")
            defaultLog := has cfg "default-log"
            intraZone := asAction
              (childStr (childNode cfg "intra-zone-filtering") "action") } := by
      intro name cfg found
      have flag : ∀ leaf, has cfg leaf =
          (subtree (zoneBase name ++ [leaf]) root).isSome := by
        intro leaf
        rw [has, subtree_append, found, Option.bind_some, subtree_singleton]
      have interfaces : childList (childNode cfg "member") "interface" =
          leafValues (subtree (zoneBase name ++ ["member", "interface"])
            root) := by
        rw [childNode_of_subtree found, childList_eq,
          subtree_nodeAt (by simp), List.append_assoc]
        rfl
      rw [childStr_eq_below found, childStr_eq_below found,
        childNode_of_subtree found "intra-zone-filtering", childStr_nodeAt,
        interfaces, flag, flag, List.append_assoc]
      rfl
    constructor
    · rintro ⟨name, cfg, found, rfl⟩
      exact ⟨by rw [found]; rfl, read found⟩
    · rintro ⟨there, same⟩
      obtain ⟨cfg, found⟩ := Option.isSome_iff_exists.mp there
      exact ⟨zone.name, cfg, found, (read found).symm.trans same⟩

end Reading

/-! ### Objects apart from a change -/

section Apart

variable {kinds : Kinds String} {root after : Cfg}

theorem subtree_below_congr {path : Path}
    (same : subtree path after = subtree path root) (more : Path) :
    subtree (path ++ more) after = subtree (path ++ more) root := by
  rw [subtree_append, subtree_append, same]

theorem diverges_groupPath {node name other probe : String}
    (different : (node, name) ≠ (other, probe)) :
    Diverges (groupPath node name) (groupPath other probe) := by
  refine diverges_of_length rfl fun same => different ?_
  simpa [groupPath] using same

theorem diverges_policyName {name other : String} (different : name ≠ other) :
    Diverges (FirewallPolicy.policyBase name)
      (FirewallPolicy.policyBase other) :=
  diverges_groupPath fun same => different (Prod.mk.inj same).2

/-- Rules are apart from groups. -/
theorem diverges_rule_group (chain : RuleChain) (key : String) (more : Path)
    (node name : String) (rest : Path) :
    Diverges (rulePath chain key ++ more) (groupPath node name ++ rest) := by
  have apart := (@diverges_beside chain key "group" (by decide)
    (node :: name :: rest)).symm.append more []
  rwa [List.append_nil] at apart

theorem diverges_rule_zone (chain : RuleChain) (key : String) (more : Path)
    (name : String) : Diverges (rulePath chain key ++ more) (zoneBase name) := by
  have apart := (@diverges_beside chain key "zone" (by decide)
    [name]).symm.append more []
  rwa [List.append_nil] at apart

theorem diverges_group_zone (node name zone : String) :
    Diverges (groupPath node name) (zoneBase zone) := by
  simp [groupPath, zoneBase, diverges_cons]

theorem node_injective {type other : AliasType} (same : type.node = other.node) :
    type = other := by
  cases type <;> cases other <;> first | rfl | exact absurd same (by decide)

theorem diverges_place {place other : AliasType × String}
    (different : place ≠ other) :
    Diverges (groupPath place.1.node place.2)
      (groupPath other.1.node other.2) := by
  refine diverges_groupPath fun same => different ?_
  obtain ⟨node, name⟩ := Prod.mk.inj same
  exact Prod.ext (node_injective node) name

theorem node_ne_portGroup (type : AliasType) : type.node ≠ "port-group" := by
  cases type <;> decide

theorem ownedAt_congr {node name : String}
    (same : subtree (groupPath node name) after =
      subtree (groupPath node name) root) :
    ownedAt after node name = ownedAt root node name := by
  rw [ownedAt, textAt_congr (subtree_below_congr same _)]
  rfl

theorem ownedAt_of_absent {node name : String}
    (absent : subtree (groupPath node name) root = none) :
    ownedAt root node name = false := by
  rw [ownedAt, textAt, subtree_append, absent]
  rfl

theorem aliasAt_congr {place : AliasType × String}
    (same : subtree (groupPath place.1.node place.2) after =
      subtree (groupPath place.1.node place.2) root) :
    aliasAt after place = aliasAt root place := by
  have below := subtree_below_congr same
  simp only [aliasAt, textAt_congr (below _), below]

theorem autoGroupAt_congr {place : String × String}
    (same : subtree (groupPath place.1 place.2) after =
      subtree (groupPath place.1 place.2) root) :
    autoGroupAt after place = autoGroupAt root place := by
  have below := subtree_below_congr same
  simp only [autoGroupAt, below]

theorem policyAt_congr {name : String}
    (same : subtree (FirewallPolicy.policyBase name) after =
      subtree (FirewallPolicy.policyBase name) root) :
    policyAt after name = policyAt root name := by
  have below := subtree_below_congr same
  simp only [policyAt, textAt_congr (below _), below]

theorem zoneAt_congr {name : String}
    (same : subtree (zoneBase name) after = subtree (zoneBase name) root) :
    zoneAt after name = zoneAt root name := by
  have below := subtree_below_congr same
  simp only [zoneAt, textAt_congr (below _), below]

/-- Nothing is added to a list, and nothing taken out. -/
abbrev Same {Entry : Type} (entries : FirewallConfig → List Entry)
    (before after : FirewallConfig) : Prop :=
  ∀ entry, entry ∈ entries after ↔ entry ∈ entries before

variable (locale : Locale) (conforms : Conforms kinds root)
  (conforms' : Conforms kinds after)
include conforms conforms'

theorem same_aliases (same : ∀ (type : AliasType) name,
      subtree (groupPath type.node name) after =
        subtree (groupPath type.node name) root) :
    Same FirewallConfig.aliases (fetchFirewall locale root)
      (fetchFirewall locale after) := by
  refine (reads_aliases locale conforms).congr (reads_aliases locale conforms')
    fun place => ⟨?_, aliasAt_congr (same _ _)⟩
  rw [same, ownedAt_congr (same _ _)]

theorem same_policies (same : ∀ name,
      subtree (FirewallPolicy.policyBase name) after =
        subtree (FirewallPolicy.policyBase name) root) :
    Same FirewallConfig.policies (fetchFirewall locale root)
      (fetchFirewall locale after) :=
  (reads_policies locale conforms).congr (reads_policies locale conforms')
    fun name => ⟨by rw [same], policyAt_congr (same name)⟩

theorem same_zones (same : ∀ name,
      subtree (zoneBase name) after = subtree (zoneBase name) root) :
    Same FirewallConfig.zones (fetchFirewall locale root)
      (fetchFirewall locale after) :=
  (reads_zones locale conforms).congr (reads_zones locale conforms')
    fun name => ⟨by rw [same], zoneAt_congr (same name)⟩

theorem same_autoGroups (same : ∀ (type : AliasType) name,
      subtree (groupPath type.node name) after =
          subtree (groupPath type.node name) root ∨
        (((subtree (groupPath type.node name) root).isSome = true →
            ownedAt root type.node name = false) ∧
          ownedAt after type.node name = false)) :
    Same FirewallConfig.autoGroups (fetchFirewall locale root)
      (fetchFirewall locale after) := by
  intro auto
  rw [(reads_autoGroups locale conforms).mem,
    (reads_autoGroups locale conforms').mem]
  by_cases known : ∃ type : AliasType, type.node = auto.node
  · obtain ⟨type, isNode⟩ := known
    have one := same type auto.name
    rw [isNode] at one
    rcases one with same | ⟨shown, shown'⟩
    · have group : autoGroupAt after (auto.node, auto.name) =
          autoGroupAt root (auto.node, auto.name) := autoGroupAt_congr same
      rw [group, ownedAt_congr same, same]
    · refine iff_of_false ?_ ?_
      · rintro ⟨⟨_, _, owned⟩, _⟩
        exact Bool.false_ne_true (shown'.symm.trans owned)
      · rintro ⟨⟨_, there, owned⟩, _⟩
        exact Bool.false_ne_true ((shown there).symm.trans owned)
  · exact iff_of_false (fun read => known read.1.1) fun read => known read.1.1

end Apart

end QuartzFire.Firewall
