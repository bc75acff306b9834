import QuartzFire.Foundation.ConfigCheck
import QuartzFire.Firewall.Schema
import QuartzFire.Foundation.LetterCase
import QuartzFire.Services.ActionSaves
import QuartzFire.Services.InspectionSaves
import QuartzFire.Services.PolicySaves

/-!
# Edits of the services

Settings of the inspection and geolocation policies are always put in place.  An
action is, unless it goes on letting unknown addresses through where the tree
does not say so or nothing else changes, or loses a country that is stored in
lower case.
-/

namespace QuartzFire.Firewall

open ConfigTree

/-- A tree as a device renders it: policies are named by their numbers. -/
structure ServiceTree (kinds : Kinds String) (root : Cfg) : Prop where
  conforms : Conforms kinds root
  policies : Numbered geoBase root
  bindings : Numbered sslBase root

/-- Edits of the services take effect exactly where the action's does. -/
theorem service_edits_iff [UpperCase] {kinds : Kinds String} (schema : ServiceSchema kinds)
    {locale : Locale} {root : Cfg} (tree : ServiceTree kinds root)
    {settings : SslInspectionConfig} (sent : settings.Submitted)
    {action : GeoActionUpdate}
    (acted : action.Submitted (fetchGeoActions locale root))
    {policy : GeoPolicyUpdate}
    (attached : policy.Submitted (fetchGeolocation root)) :
    (settings.Saved kinds root ∧ action.Saved kinds locale root ∧
      policy.Saved kinds locale root) ↔ action.Effective root := by
  have settled : settings.Saved kinds root :=
    SslInspectionConfig.saved schema tree.conforms tree.bindings sent
  have numbered : policy.Saved kinds locale root :=
    GeoPolicyUpdate.saved schema tree.conforms tree.policies attached
  have effective : action.Saved kinds locale root ↔ action.Effective root :=
    GeoActionUpdate.saved_iff schema tree.conforms acted tree.policies
  constructor
  · rintro ⟨_, saved, _⟩
    exact effective.mp saved
  · intro effect
    exact ⟨settled, effective.mpr effect, numbered⟩

/-! ## A device -/

/-- Country codes are plain letters. -/
instance asciiUpper : UpperCase where
  upper := String.toUpper
  upper_upper text := by
    apply String.toList_injective
    simp only [toList_toUpper, List.map_map]
    exact List.map_congr_left fun char _ => toUpper_toUpper char

/-- The templates of the services. -/
def serviceKind : Kinds String
  | ["service", "geolocation", "policy", _, leaf] =>
      if leaf = "disable" then .valueless else .single
  | ["service", "geolocation", "action", _, leaf] =>
      if leaf = "country" then .multi
      else if leaf = "log" then .valueless else .single
  | ["service", "quartzfire", "ssl-inspection", leaf] =>
      if leaf ∈ ["enable", "disable-default-exclusions"] then .valueless
      else if leaf = "no-inspect" then .multi
      else if leaf ∈ ["policy", "ca-download", "content-filter"] then .node
      else .single
  | ["service", "quartzfire", "ssl-inspection", "ca-download", _] => .multi
  | ["service", "quartzfire", "ssl-inspection", "content-filter", _] => .single
  | ["service", "quartzfire", "ssl-inspection", "policy", _, leaf] =>
      if leaf = "disable" then .valueless else .single
  | _ => .node

theorem serviceSchema : ServiceSchema serviceKind where
  policy _ := ⟨rfl, rfl, rfl, rfl, trivial⟩
  policyFields _ := of_decide_eq_true rfl
  action _ := ⟨rfl, rfl, rfl, rfl, trivial⟩
  actionFields _ := of_decide_eq_true rfl
  service := ⟨rfl, rfl, rfl, trivial⟩
  serviceFields := of_decide_eq_true rfl
  binding _ := ⟨rfl, rfl, rfl, rfl, rfl, trivial⟩
  bindingFields _ := of_decide_eq_true rfl

/-- One action that blocks a country, and one policy of it. -/
def blocking : Cfg :=
  .node [("service", .node [("geolocation", .node
    [("action", .node [("Block", .node
      [("country", .value "CN"), ("mode", .value "block-listed")])]),
      ("policy", .node [("1", .node
        [("action", .value "Block"), ("direction", .value "source"),
          ("rule", .value "20"), ("ruleset", .value "forward")])])])])]

theorem tree_blocking : ServiceTree serviceKind blocking where
  conforms := conforms_of_check rfl (by decide +kernel)
  policies key body found := by
    have named : allAt (fun key _ => key = toString (ruleNumber key))
        [some "service", some "geolocation", some "policy", none]
        blocking = true := by decide +kernel
    exact of_decide_eq_true (allAt_sound _ named (by simp [geoBase]) found)
  bindings key body found := by
    have absent : subtree sslBase blocking = none := by decide +kernel
    rw [subtree_append, absent] at found
    cases found

/-- The action as it is. -/
def sameAction : GeoActionUpdate :=
  { name := "Block"
    description := none
    mode := .blockListed
    countries := ["CN"]
    unknownIp := .allow
    log := false
    originalName := some "Block" }

theorem submitted_sameAction :
    sameAction.Submitted (fetchGeoActions codepoints blocking) where
  named := by decide +kernel
  known name given := by
    cases given
    exact of_decide_eq_true (p := ∃ known ∈ fetchGeoActions codepoints blocking,
      known.name = "Block") (by decide +kernel)
  free _ _ _ := rfl

/-- The action with another country, that blocks unknown addresses. -/
def widerAction : GeoActionUpdate :=
  { sameAction with
    countries := ["CN", "RU"]
    unknownIp := .block }

def addedPolicy : GeoPolicyUpdate :=
  { id := 2
    action := "Block"
    ruleset := .base .forward
    rule := 30
    direction := .destination
    enabled := true
    originalId := none }

theorem submitted_widerAction :
    widerAction.Submitted (fetchGeoActions codepoints blocking) :=
  ⟨submitted_sameAction.named, submitted_sameAction.known,
    submitted_sameAction.free⟩

theorem submitted_addedPolicy :
    addedPolicy.Submitted (fetchGeolocation blocking) where
  action := by decide +kernel
  ruleset := by decide +kernel
  known _ given := by cases given
  free known member same := by
    have apart : ∀ known ∈ fetchGeolocation blocking, known.id ≠ 2 := by
      decide +kernel
    exact absurd same (apart known member)

/-- The settings, switched on. -/
def inspecting : SslInspectionConfig :=
  { fetchSslInspection blocking with enabled := true }

theorem submitted_inspecting : inspecting.Submitted where
  port := by decide +kernel
  rules := by decide +kernel
  rulesets := by decide +kernel
  filter filter given := by
    have none : inspecting.contentFilter = none := by decide +kernel
    rw [none] at given
    cases given

theorem blocking_edits_iff :
    (inspecting.Saved serviceKind blocking ∧
      widerAction.Saved serviceKind codepoints blocking ∧
      addedPolicy.Saved serviceKind codepoints blocking) ↔
        widerAction.Effective blocking :=
  service_edits_iff serviceSchema tree_blocking submitted_inspecting
    submitted_widerAction submitted_addedPolicy

/-- An action that nothing changes of comes to a delete of what is not
there. -/
theorem sameAction_deletes :
    sameAction.commands codepoints blocking =
        [.delete (actionBase "Block" ++ ["unknown-ip"])] ∧
      subtree (actionBase "Block" ++ ["unknown-ip"]) blocking = none ∧
      ¬ sameAction.Saved serviceKind codepoints blocking := by
  have commands : sameAction.commands codepoints blocking =
      [.delete (actionBase "Block" ++ ["unknown-ip"])] := by
    decide +kernel
  refine ⟨commands, by decide +kernel, fun saved => ?_⟩
  have effective := (GeoActionUpdate.saved_iff serviceSchema
    tree_blocking.conforms submitted_sameAction tree_blocking.policies).mp saved
  have explicit := (effective.unknownIp (by decide +kernel) (by decide +kernel)
    rfl).1
  revert explicit
  decide +kernel

end QuartzFire.Firewall
