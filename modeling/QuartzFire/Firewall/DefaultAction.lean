import QuartzFire.Firewall.Pieces

/-!
# The default action and the zones

The zone chains run after the forward chain, so a forward chain that drops
what it does not match drops all traffic between zones before any zone rule is
consulted.  Changing the default action looks for zones; creating the first
zone does not look at the default action.
-/

namespace QuartzFire.Firewall

open ConfigTree TransitionSystem

/-- Zones behind a forward chain that drops what it does not match. -/
def Blackholed (cfg : FirewallConfig) : Prop :=
  cfg.zones ≠ [] ∧ (cfg.setup .forward).defaultAction = some "drop"

instance (cfg : FirewallConfig) : Decidable (Blackholed cfg) := by
  unfold Blackholed
  infer_instance

/-- The first zone is created only while the forward chain accepts. -/
def Operation.FirstZoneAccepting (cfg : FirewallConfig) : Operation → Prop
  | .saveZone _ =>
      cfg.zones = [] → (cfg.setup .forward).defaultAction ≠ some "drop"
  | _ => True

/-- A configuration without zones that does not drop by default. -/
structure Unzoned (schema : Schema) (locale : Locale) (root : Cfg) : Prop where
  rendered : Rendered schema root
  zones : (fetchFirewall locale root).zones = []
  accepts : ((fetchFirewall locale root).setup .forward).defaultAction ≠
    some "drop"

/-! ## Reading -/

def forwardDefault : Path := filterBase (.base .forward) ++ ["default-action"]

def zonesPath : Path := ["firewall", "zone"]

theorem forward_defaultAction (locale : Locale) (root : Cfg) :
    ((fetchFirewall locale root).setup .forward).defaultAction =
      textAt forwardDefault root := by
  simp only [fetchFirewall, parseChain, chainSetup]
  exact (congrArg (childStr · "default-action")
    (chainFilter_eq_nodeAt root (.base .forward))).trans
    (childStr_nodeAt _ _ _)

theorem zones_eq_nil_iff {locale : Locale} {root : Cfg} :
    (fetchFirewall locale root).zones = [] ↔
      (nodeAt zonesPath root).entries = [] := by
  have node : childNode (fetchFirewallConfig root) "zone" =
      nodeAt zonesPath root := by
    rw [fetchFirewallConfig, childNode_eq_nodeAt root, childNode_nodeAt]
    rfl
  simp only [fetchFirewall, parseZones, Locale.sortBy, node]
  constructor
  · intro empty
    have sizes := congrArg List.length empty
    rw [(List.perm_insertionSort _ _).length_eq] at sizes
    simpa using sizes
  · intro empty
    rw [empty]
    rfl

theorem zonePairs_of_zones {locale : Locale} {root : Cfg}
    (none : (fetchFirewall locale root).zones = []) :
    (fetchFirewall locale root).zonePairs = [] := by
  have node : childNode (fetchFirewallConfig root) "zone" =
      nodeAt zonesPath root := by
    rw [fetchFirewallConfig, childNode_eq_nodeAt root, childNode_nodeAt]
    rfl
  rw [zones_eq_nil_iff] at none
  simp only [fetchFirewall, parseZonePairs, node, none, List.flatMap_nil]

/-! ## What operations leave alone -/

theorem quiet_forwardDefault (locale : Locale) (cfg : FirewallConfig)
    {operation : Operation}
    (other : ∀ action, operation ≠ .changeDefault action) :
    Quiet locale cfg operation forwardDefault where
  inside := rfl
  group := by simp [forwardDefault, filterBase, diverges_cons]
  rule := by
    intro chain more
    cases chain with
    | base chain =>
        cases chain <;>
          simp [forwardDefault, filterBase, BaseChain.text, diverges_cons]
    | name ruleset =>
        simp [forwardDefault, filterBase, BaseChain.text, diverges_cons]
  ruleset := by
    simp [forwardDefault, filterBase, BaseChain.text, diverges_cons]
  seed := by
    intro chain other
    cases chain <;>
      simp_all [forwardDefault, filterBase, BaseChain.text, diverges_cons]
  logging := by
    intro chain
    cases chain <;>
      simp [forwardDefault, filterBase, BaseChain.text, diverges_cons]
  default := fun action same => absurd same (other action)
  zone := by simp [forwardDefault, filterBase, diverges_cons]

/-- Without zones nothing but saving a zone has to do with zones. -/
theorem quiet_zonesPath {locale : Locale} {root : Cfg}
    {operation : Operation} (zones : (fetchFirewall locale root).zones = [])
    (other : ∀ update, operation ≠ .saveZone update)
    (offered : operation.Offered (fetchFirewall locale root)) :
    Quiet locale (fetchFirewall locale root) operation zonesPath where
  inside := rfl
  group := by simp [zonesPath, diverges_cons]
  rule := by
    intro chain more
    cases chain <;> simp [zonesPath, filterBase, diverges_cons]
  ruleset := by simp [zonesPath, diverges_cons]
  seed := by simp [zonesPath, filterBase, diverges_cons]
  logging := by simp [zonesPath, filterBase, diverges_cons]
  default := by simp [zonesPath, filterBase, diverges_cons]
  zone := by
    have pairs := zonePairs_of_zones zones
    rintro (paired | ⟨pair, binds⟩ | ⟨name, drops⟩ | ⟨update, saves⟩)
    · exact absurd pairs paired
    · cases operation with
      | saveRule live update =>
          obtain ⟨place, placed, member, _⟩ := binds
          have known : update.ZonesKnown (fetchFirewall locale root) := by
            cases live with
            | none => exact offered.2
            | some live => exact offered.2.2
          have zoned := known.zoned placed (List.ne_nil_of_mem member)
          simp [zones, pairs] at zoned
      | _ => cases binds
    · cases operation with
      | saveZone update => exact absurd rfl (other update)
      | removeZone zone =>
          have member := offered.1
          rw [zones] at member
          cases member
      | _ => cases drops
    · exact absurd saves (other update)

variable {device : Device} {locale : Locale} {root : Cfg}

/-- Only changing the default action changes the default action. -/
theorem defaultAction_kept {operation : Operation}
    {commands : List VyosCommand}
    (other : ∀ action, operation ≠ .changeDefault action)
    (offered : operation.Offered (fetchFirewall locale root))
    (made : operation.commands locale (fetchFirewall locale root) =
      .ok commands) (kinds : Kinds String) :
    ((fetchFirewall locale (executeAll kinds commands root)).setup
        .forward).defaultAction =
      ((fetchFirewall locale root).setup .forward).defaultAction := by
  rw [forward_defaultAction, forward_defaultAction]
  have spared := (quiet_forwardDefault locale _ other).commands
    (composed_commands offered made) (spares_ensureStatePolicy _
      (by simp [forwardDefault, filterBase, diverges_cons]))
  exact textAt_congr (spared.subtree_eq root)

/-- Without zones only saving a zone creates one. -/
theorem zones_kept {operation : Operation} {commands : List VyosCommand}
    (zones : (fetchFirewall locale root).zones = [])
    (other : ∀ update, operation ≠ .saveZone update)
    (offered : operation.Offered (fetchFirewall locale root))
    (made : operation.commands locale (fetchFirewall locale root) =
      .ok commands) (kinds : Kinds String) :
    (fetchFirewall locale (executeAll kinds commands root)).zones = [] := by
  have spared := (quiet_zonesPath zones other offered).commands
    (composed_commands offered made) (spares_ensureStatePolicy _
      (by simp [zonesPath, diverges_cons]))
  rw [zones_eq_nil_iff] at zones ⊢
  rw [nodeAt, spared.subtree_eq root]
  exact zones

/-- The action that is set is the one read back. -/
theorem defaultAction_set (schema : CommandSchema)
    (conforms : Conforms schema.kinds root) {action : DefaultAction}
    {commands : List VyosCommand}
    (made : setDefaultAction (fetchFirewall locale root) action =
      .ok commands) :
    ((fetchFirewall locale (executeAll schema.kinds commands root)).setup
      .forward).defaultAction = some action.text := by
  obtain ⟨_, rfl⟩ := setDefaultAction_eq_ok.mp made
  have nodes : NodePath schema.kinds (filterBase (.base .forward)) := by
    have deeper := schema.ruleNode (.base .forward) "1"
    exact ⟨deeper.1, deeper.2.1, deeper.2.2.1, deeper.2.2.2.1, trivial⟩
  rw [forward_defaultAction, executeAll_append]
  have settled : Conforms schema.kinds (executeAll schema.kinds
      (if action = .drop then ensureForwardBaseline (fetchFirewall locale root)
        else []) root) := conforms.executeAll
  have written := settled.subtree_set_single nodes
    (schema.defaultAction .forward) action.text
  refine (textAt_of_value written).trans ?_
  cases action <;> decide

/-- In every run that creates the first zone only while traffic is accepted by
default, no zones are ever behind a chain that drops. -/
theorem not_blackholed
    (reached : ReachableUnder
      (console device locale (Unzoned device.schema.toSchema locale))
      (fun root operation =>
        operation.Offered (fetchFirewall locale root) ∧
          operation.FirstZoneAccepting (fetchFirewall locale root)) root) :
    ¬ Blackholed (fetchFirewall locale root) := by
  let holds := fun root => Rendered device.schema.toSchema root ∧
    ¬ Blackholed (fetchFirewall locale root)
  suffices kept : holds root from kept.2
  refine ReachableUnder.invariant ?_ ?_ reached
  · intro root unzoned
    exact ⟨unzoned.rendered, fun black => black.1 unzoned.zones⟩
  · rintro root operation after ⟨rendered, safe⟩ ⟨offered, accepting⟩ stepped
    obtain ⟨commands, made, rfl, accepted⟩ := console_next.mp stepped
    refine ⟨device.rendered _ accepted, ?_⟩
    rintro ⟨zoned, drops⟩
    by_cases changes : ∃ action, operation = .changeDefault action
    · obtain ⟨action, rfl⟩ := changes
      have set := defaultAction_set device.schema rendered.conforms made
      cases action with
      | accept =>
          rw [set] at drops
          exact absurd drops (by decide)
      | drop =>
          have saved : setDefaultAction _ .drop = .ok commands := made
          obtain ⟨unzoned, _⟩ := setDefaultAction_eq_ok.mp saved
          exact zoned (zones_kept (unzoned rfl) (by simp) offered made _)
    · rw [not_exists] at changes
      rw [defaultAction_kept changes offered made] at drops
      have zones : (fetchFirewall locale root).zones = [] := by
        by_contra zones
        exact safe ⟨zones, drops⟩
      refine zoned (zones_kept zones ?_ offered made _)
      rintro update rfl
      exact accepting zones drops

/-! ## A run into the black hole -/

abbrev lanZone : ZoneUpdate := plainZone "LAN" "eth1"

theorem lanZone_offered (cfg : FirewallConfig) :
    (Operation.saveZone lanZone).Offered cfg := by
  intro name moved
  cases moved

theorem unzoned_empty :
    Unzoned vyosDevice.schema.toSchema codepoints (.node []) where
  rendered := vyosDevice.rendered _ (by decide +kernel)
  zones := rfl
  accepts := by decide +kernel

/-- The configuration after one zone is saved. -/
def lanConfig : Option Cfg :=
  (console vyosDevice codepoints (Unzoned vyosSchema codepoints)).next
    (.node []) (.saveZone lanZone)

theorem lanConfig_taken : lanConfig.isSome = true := by
  decide +kernel

theorem lanConfig_not_blackholed :
    ¬ Blackholed (fetchFirewall codepoints
      (lanConfig.get lanConfig_taken)) := by
  have stepped : lanConfig = some _ := (Option.some_get lanConfig_taken).symm
  refine not_blackholed (.step (.initial unzoned_empty) ?_ stepped)
  exact ⟨lanZone_offered _, fun _ => unzoned_empty.accepts⟩

/-- Denying by default before the first zone is created leaves both. -/
def deniedRun : Option Cfg :=
  (console vyosDevice codepoints (Unzoned vyosSchema codepoints)).run
    (.node []) [.changeDefault .drop, .saveZone lanZone]

theorem deniedRun_taken : deniedRun.isSome = true := by
  decide +kernel

theorem zone_after_deny_blackholed :
    ∃ root, ReachableUnder
      (console vyosDevice codepoints (Unzoned vyosSchema codepoints))
      (fun root operation =>
        operation.Offered (fetchFirewall codepoints root)) root ∧
      Blackholed (fetchFirewall codepoints root) := by
  refine ⟨deniedRun.get deniedRun_taken, ?_, by decide +kernel⟩
  refine ReachableUnder.run (.initial unzoned_empty)
    [.changeDefault .drop, .saveZone lanZone] ?_ (Option.some_get _).symm
  exact ⟨trivial, fun _ _ => ⟨lanZone_offered _, fun _ _ => trivial⟩⟩

end QuartzFire.Firewall
