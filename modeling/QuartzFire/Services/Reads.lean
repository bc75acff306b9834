import QuartzFire.Firewall.GeoAttachments
import QuartzFire.Firewall.ObjectReads
import QuartzFire.Foundation.ConfigRegister
import QuartzFire.Services.Model

/-!
# Actions and policies by their paths

Each geolocation policy is what is read at its number and each action what is
read at its name.
-/

namespace QuartzFire.Firewall

open ConfigTree

/-! ## Nodes with numbers -/

/-- The nodes below the base are named by their numbers. -/
def Numbered (base : Path) (root : Cfg) : Prop :=
  ∀ key body, subtree (base ++ [key]) root = some body →
    key = toString (ruleNumber key)

theorem Numbered.executeAll {base : Path} {root : Cfg}
    (numbered : Numbered base root) {kinds : Kinds String}
    {commands : List VyosCommand}
    (spared : ∀ key, key ≠ toString (ruleNumber key) →
      Spares (base ++ [key]) commands) :
    Numbered base (executeAll kinds commands root) := by
  intro key body found
  by_contra odd
  rw [(spared key odd).subtree_eq] at found
  exact odd (numbered key body found)

theorem diverges_named {base : Path} {key other : String}
    (different : key ≠ other) (more : Path) :
    Diverges (base ++ key :: more) (base ++ [other]) := by
  rw [diverges_append_left]
  have apart : Diverges [key] [other] :=
    diverges_of_length rfl (by simpa using different)
  have longer := apart.append more []
  rwa [List.append_nil] at longer

theorem diverges_numbered {base : Path} {id other : Nat} (different : id ≠ other) :
    Diverges (base ++ [toString id]) (base ++ [toString other]) :=
  diverges_named (fun same => different (toString_injective same)) []

/-- What is written at a number is not at a name that is none. -/
theorem diverges_odd {base : Path} {key : String}
    (odd : key ≠ toString (ruleNumber key)) (id : Nat) (more : Path) :
    Diverges (base ++ toString id :: more) (base ++ [key]) := by
  refine diverges_named (fun same => odd ?_) more
  rw [← same, ruleNumber_toString]

/-! ## Values written as texts -/

/-- A value reads as desired if its text is written where it differs. -/
theorem reads_written {Value : Type} {reads : Option String → Value}
    {text : Value → String} (injective : Function.Injective text)
    {desired : Value} (plain : trimmed (text desired) = some (text desired))
    (inverse : reads (some (text desired)) = desired) {path : Path}
    {root after : Cfg} {live : Option Value}
    (known : ∀ value ∈ live, reads (textAt path root) = value)
    (written : subtree path after =
      if some (text desired) = live.map text then subtree path root
      else (some (text desired)).map .value) :
    reads (textAt path after) = desired := by
  have shown := textAt_written (by rw [Option.bind_some, plain]) written
  rw [shown]
  split
  · rename_i same
    obtain ⟨value, there, equal⟩ := Option.map_eq_some_iff.mp same.symm
    rw [known value there]
    exact injective equal
  · exact inverse

/-- A leaf of a record that is saved reads as desired. -/
theorem reads_saved {Record Value : Type} {kinds : Kinds String}
    {save : RecordSave String} (proper : save.Proper kinds) {root : Cfg}
    (conforms : Conforms kinds root) (reads : Option String → Value)
    {text : Value → String} (injective : Function.Injective text)
    {desired : Value} (plain : trimmed (text desired) = some (text desired))
    (inverse : reads (some (text desired)) = desired) {path : Path}
    (field : FieldAt kinds (save.base ++ path) .single)
    {prev : Option Record} {project : Record → Value}
    (known : ∀ record ∈ prev,
      reads (textAt (save.base ++ path) root) = project record)
    (member : (path, leafDiff (save.base ++ path)
      ((prev.map project).map text) (some (text desired))) ∈ save.fields) :
    reads (textAt (save.base ++ path)
      (executeAll kinds save.commands root)) = desired := by
  refine reads_written injective plain inverse (fun value shown => ?_)
    (proper.field_at conforms member (yields_leafDiff field _ _))
  obtain ⟨record, there, same⟩ := Option.map_eq_some_iff.mp shown
  rw [known record there, same]

theorem ruleset_text_injective : Function.Injective RuleChain.text := by
  intro left right same
  rw [← asRuleset_text left, same, asRuleset_text]

theorem direction_text_injective : Function.Injective GeoDirection.text := by
  intro left right same
  rw [← asDirection_text left, same, asDirection_text]

/-! ## Policies by their paths -/

/-- The leaves of the services, and nodes around them. -/
structure ServiceSchema (kinds : Kinds String) : Prop where
  policy : ∀ id, NodePath kinds (geoBase ++ [id])
  policyFields : ∀ id, Shaped (kinds.below (geoBase ++ [id]))
    [(["action"], .single), (["ruleset"], .single), (["rule"], .single),
      (["direction"], .single), (["disable"], .valueless)]
  action : ∀ name, NodePath kinds (actionBase name)
  actionFields : ∀ name, Shaped (kinds.below (actionBase name))
    [(["description"], .single), (["mode"], .single),
      (["unknown-ip"], .single), (["country"], .multi), (["log"], .valueless)]
  service : NodePath kinds sslNode
  serviceFields : Shaped (kinds.below sslNode)
    [(["enable"], .valueless), (["intercept-port"], .single),
      (["default-action"], .single), (["upstream-invalid"], .single),
      (["disable-default-exclusions"], .valueless), (["no-inspect"], .multi),
      (["ca-download", "interface"], .multi),
      (["content-filter"], .node), (["content-filter", "icap-host"], .single),
      (["content-filter", "icap-port"], .single),
      (["content-filter", "reqmod-service"], .single),
      (["content-filter", "respmod-service"], .single),
      (["content-filter", "fail-mode"], .single)]
  binding : ∀ rule, NodePath kinds (sslBase ++ [rule])
  bindingFields : ∀ rule, Shaped (kinds.below (sslBase ++ [rule]))
    [(["action"], .single), (["ruleset"], .single), (["disable"], .valueless)]

def geoPolicyAt (root : Cfg) (id : Nat) : GeoPolicy :=
  let text := fun leaf => textAt (policyBase id ++ [leaf]) root
  { id := id
    action := (text "action").getD ""
    ruleset := asRuleset (text "ruleset")
    rule := leafNumber (text "rule")
    direction := asDirection (text "direction")
    enabled := !(subtree (policyBase id ++ ["disable"]) root).isSome }

theorem parseGeoPolicy_at {root cfg : Cfg} {id : Nat}
    (found : subtree (policyBase id) root = some cfg) :
    parseGeoPolicy (toString id) cfg = geoPolicyAt root id := by
  have flag : has cfg "disable" =
      (subtree (policyBase id ++ ["disable"]) root).isSome := by
    rw [subtree_append, found, Option.bind_some, subtree_singleton]
    rfl
  rw [parseGeoPolicy, geoPolicyAt, ruleNumber_toString, flag]
  simp only [childStr_eq_below found]

theorem geoPolicyAt_congr {root after : Cfg} {id : Nat}
    (same : subtree (policyBase id) after = subtree (policyBase id) root) :
    geoPolicyAt after id = geoPolicyAt root id := by
  have below : ∀ more, subtree (policyBase id ++ more) after =
      subtree (policyBase id ++ more) root := by
    intro more
    rw [subtree_append, subtree_append, same]
  simp only [geoPolicyAt, textAt_congr (below _), below]

theorem register_policies (kinds : Kinds String) :
    NodeRegister kinds (Numbered geoBase) policyBase GeoPolicy.id geoPolicyAt
      fetchGeolocation where
  apart := fun _ _ different => diverges_numbered different
  here := geoPolicyAt_congr
  reads := by
    intro root conforms numbered
    refine ⟨fun _ => rfl, fun policy => ?_⟩
    rw [mem_fetchGeolocation conforms]
    constructor
    · rintro ⟨key, cfg, found, rfl⟩
      have decimal := numbered key cfg found
      have there : subtree (policyBase (ruleNumber key)) root = some cfg := by
        rw [policyBase, ← decimal]
        exact found
      have id : (parseGeoPolicy key cfg).id = ruleNumber key := rfl
      rw [id, there, ← parseGeoPolicy_at there, ← decimal]
      exact ⟨rfl, rfl⟩
    · rintro ⟨there, same⟩
      obtain ⟨cfg, found⟩ := Option.isSome_iff_exists.mp there
      exact ⟨toString policy.id, cfg, found, by rw [parseGeoPolicy_at found, same]⟩

/-! ## Actions by their paths -/

section Actions

variable [UpperCase]

def geoActionAt (root : Cfg) (name : String) : GeoAction :=
  let text := fun leaf => textAt (actionBase name ++ [leaf]) root
  { name := name
    description := text "description"
    mode := asMode (text "mode")
    countries := (leafValues (subtree (actionBase name ++ ["country"])
      root)).map upper
    unknownIp := asUnknown (text "unknown-ip")
    log := (subtree (actionBase name ++ ["log"]) root).isSome }

theorem parseGeoAction_at {root cfg : Cfg} {name : String}
    (found : subtree (actionBase name) root = some cfg) :
    parseGeoAction name cfg = geoActionAt root name := by
  have flag : has cfg "log" =
      (subtree (actionBase name ++ ["log"]) root).isSome := by
    rw [subtree_append, found, Option.bind_some, subtree_singleton]
    rfl
  rw [parseGeoAction, geoActionAt, flag]
  simp only [childStr_eq_below found, childList_eq_below found]

theorem geoActionAt_congr {root after : Cfg} {name : String}
    (same : subtree (actionBase name) after = subtree (actionBase name) root) :
    geoActionAt after name = geoActionAt root name := by
  have below : ∀ more, subtree (actionBase name ++ more) after =
      subtree (actionBase name ++ more) root := by
    intro more
    rw [subtree_append, subtree_append, same]
  simp only [geoActionAt, textAt_congr (below _), below]

theorem mem_fetchGeoActions {kinds : Kinds String} {root : Cfg}
    (locale : Locale) (conforms : Conforms kinds root) {action : GeoAction} :
    action ∈ fetchGeoActions locale root ↔
      ∃ name cfg, subtree (actionBase name) root = some cfg ∧
        parseGeoAction name cfg = action := by
  have proper : geoActions ≠ [] := by decide
  rw [fetchGeoActions, (sortBy_perm locale _ _).mem_iff, List.mem_map,
    childNode_eq_nodeAt root, childNode_nodeAt, childNode_nodeAt]
  simp only [Prod.exists]
  refine exists₂_congr fun name cfg => and_congr_left' ?_
  exact mem_nodeAt_entries conforms proper

theorem register_actions (kinds : Kinds String) (locale : Locale) :
    NodeRegister kinds (fun _ => True) actionBase GeoAction.name geoActionAt
      (fetchGeoActions locale) where
  apart := fun _ _ different => diverges_named different []
  here := geoActionAt_congr
  reads := by
    intro root conforms _
    refine ⟨fun _ => rfl, fun action => ?_⟩
    rw [mem_fetchGeoActions locale conforms]
    constructor
    · rintro ⟨name, cfg, found, rfl⟩
      have named : (parseGeoAction name cfg).name = name := rfl
      rw [named, found, parseGeoAction_at found]
      exact ⟨rfl, rfl⟩
    · rintro ⟨there, same⟩
      obtain ⟨cfg, found⟩ := Option.isSome_iff_exists.mp there
      exact ⟨action.name, cfg, found, by rw [parseGeoAction_at found, same]⟩

end Actions

/-- Actions and policies are at different nodes. -/
theorem diverges_action_policy (name key : String) (first second : Path) :
    Diverges (actionBase name ++ first) (geoBase ++ key :: second) := by
  have apart : Diverges ["service", "geolocation", "action"]
      ["service", "geolocation", "policy"] := by decide
  exact apart.append (name :: first) (key :: second)

end QuartzFire.Firewall
