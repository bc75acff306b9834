import QuartzFire.Foundation.ConfigEdit
import QuartzFire.Foundation.TransitionSystem
import QuartzFire.Foundation.Fallible
import QuartzFire.Firewall.Objects
import QuartzFire.Firewall.Reorder

/-!
# The console over runs

Each operation reads the configuration, works out its commands from what it
read and commits them as one batch; the device takes the batch or refuses it.
A run is any sequence of operations the pages offer, one after another.
-/

namespace QuartzFire.Firewall

open ConfigTree

/-! ## Operations -/

inductive Operation where
  | saveAlias (update : AliasUpdate)
  | removeAlias (existing : FirewallAlias)
  | savePolicy (update : PolicyUpdate)
  | removePolicy (name : String)
  | saveZone (update : ZoneUpdate)
  | removeZone (zone : FirewallZone)
  | saveRule (live : Option FirewallRule) (update : RuleUpdate)
  | removeRule (rule : FirewallRule)
  | inspect (changes : List (FirewallRule × Bool))
  | reorder (order : List FirewallRule)
  | changeDefault (action : DefaultAction)
  | enableLogging
  /-- What the other pages write, and what rides along with a change. -/
  | elsewhere (commands : List VyosCommand)

/-- The batch an operation commits, given the configuration read. -/
def Operation.commands (locale : Locale) (cfg : FirewallConfig) :
    Operation → Except String (List VyosCommand)
  | .saveAlias update => .ok (diffAlias cfg.aliases update)
  | .removeAlias existing => .ok (deleteAlias existing)
  | .savePolicy update => .ok (diffPolicy cfg.policies cfg.rules update)
  | .removePolicy name => .ok (deletePolicy name)
  | .saveZone update => diffZone cfg update
  | .removeZone zone => .ok (deleteZone cfg zone)
  | .saveRule live update => diffRule locale live update cfg
  | .removeRule rule => .ok (deleteRule rule cfg.autoGroups [] (some cfg))
  | .inspect changes => .ok (changes.flatMap fun (rule, enabled) =>
      ipsRuleCommands rule enabled cfg)
  | .reorder order => .ok (reorderCommands order)
  | .changeDefault action => setDefaultAction cfg action
  | .enableLogging => .ok (enableTrafficLoggingCommands cfg)
  | .elsewhere commands => .ok commands

/-- The zones on the sides of a rule are picked from those there are. -/
def RuleUpdate.ZonesKnown (cfg : FirewallConfig) (update : RuleUpdate) :
    Prop :=
  ∀ entry ∈ update.source ++ update.target, ∀ name,
    entry.zoneName = some name →
      (∃ zone ∈ cfg.zones, zone.name = name) ∨
        ∃ pair ∈ cfg.zonePairs, pair.src = name ∨ pair.dst = name

/-- A rule is put into zone pairs only where there are zones. -/
theorem RuleUpdate.ZonesKnown.zoned {locale : Locale}
    {live : Option FirewallRule} {update : RuleUpdate} {cfg : FirewallConfig}
    {place : RulePlacement} (known : update.ZonesKnown cfg)
    (placed : placeRule locale live update cfg = .ok place)
    (paired : place.pairs ≠ []) : cfg.zones ≠ [] ∨ cfg.zonePairs ≠ [] := by
  obtain ⟨pairs, fromPairs, placed⟩ := bind_eq_ok.mp placed
  obtain ⟨chains, _, placed⟩ := bind_eq_ok.mp placed
  cases placed
  unfold zonePairsFor at fromPairs
  split at fromPairs
  · cases fromPairs
    exact absurd rfl paired
  · rename_i some
    have zoned : (update.source ++ update.target).any
        EndpointEntry.isZone = true := by
      rw [List.any_append]
      simpa [Bool.or_eq_true, or_iff_not_imp_left] using some
    obtain ⟨entry, member, isZone⟩ := List.any_eq_true.mp zoned
    cases entry with
    | zone name =>
        refine (known _ member name rfl).imp ?_ ?_
        · rintro ⟨zone, inZones, _⟩
          exact List.ne_nil_of_mem inZones
        · rintro ⟨pair, inPairs, _⟩
          exact List.ne_nil_of_mem inPairs
    | _ => cases isZone

/-- What the pages let an operator ask for: the rules and zones are those on
the page, a new rule takes the next number, and a zone some rule uses is
neither renamed nor deleted. -/
def Operation.Offered (cfg : FirewallConfig) : Operation → Prop
  | .saveRule none update =>
      update.rule = nextRuleNumber cfg.rules ∧ update.ZonesKnown cfg
  | .saveRule (some live) update =>
      live ∈ cfg.rules ∧ update.rule = live.rule ∧ update.ZonesKnown cfg
  | .removeRule rule => rule ∈ cfg.rules
  | .inspect changes => ∀ change ∈ changes, change.1 ∈ cfg.rules
  | .reorder order => order.Perm cfg.rules
  | .saveZone update => ∀ name, update.moved = some name →
      ∃ zone ∈ cfg.zones, zone.name = name ∧ zoneUsage cfg zone = []
  | .removeZone zone => zone ∈ cfg.zones ∧ zoneUsage cfg zone = []
  | .elsewhere commands => ∀ command ∈ commands, ∃ head more,
      command.path = head :: more ∧ head ≠ "firewall"
  | _ => True

instance (cfg : FirewallConfig) (update : RuleUpdate) :
    Decidable (update.ZonesKnown cfg) :=
  have (entry : EndpointEntry) : Decidable (∀ name,
      entry.zoneName = some name →
        (∃ zone ∈ cfg.zones, zone.name = name) ∨
          ∃ pair ∈ cfg.zonePairs, pair.src = name ∨ pair.dst = name) :=
    inferInstanceAs (Decidable (∀ name ∈ entry.zoneName, _))
  inferInstanceAs (Decidable (∀ entry ∈ update.source ++ update.target, _))

instance (cfg : FirewallConfig) :
    (operation : Operation) → Decidable (operation.Offered cfg)
  | .saveRule none _ | .saveRule (some _) _ =>
      inferInstanceAs (Decidable (_ ∧ _))
  | .saveZone update => inferInstanceAs (Decidable (∀ name ∈ update.moved,
      ∃ zone ∈ cfg.zones, zone.name = name ∧ zoneUsage cfg zone = []))
  | .removeRule rule => inferInstanceAs (Decidable (rule ∈ cfg.rules))
  | .inspect changes => inferInstanceAs
      (Decidable (∀ change ∈ changes, change.1 ∈ cfg.rules))
  | .reorder order => inferInstanceAs (Decidable (order.Perm cfg.rules))
  | .removeZone _ => inferInstanceAs (Decidable (_ ∧ _))
  | .elsewhere commands =>
      have (command : VyosCommand) : Decidable (∃ head more,
          command.path = head :: more ∧ head ≠ "firewall") :=
        match same : command.path with
        | [] => .isFalse (by simp)
        | head :: more => decidable_of_iff (head ≠ "firewall") (by simp)
      inferInstanceAs (Decidable (∀ command ∈ commands, _))
  | .saveAlias _ | .removeAlias _ | .savePolicy _ | .removePolicy _
  | .changeDefault _ | .enableLogging => .isTrue trivial

/-! ## The device -/

/-- What the console writes into, beside rules and policies. -/
structure CommandSchema extends Schema where
  defaultAction : ∀ chain : BaseChain,
    kinds (filterBase (.base chain) ++ ["default-action"]) = .single
  ruleDescription : ∀ chain number,
    kinds (filterBase chain ++ ["rule", number, "description"]) = .single
  ruleAction : ∀ chain number,
    kinds (filterBase chain ++ ["rule", number, "action"]) = .single
  binding : ∀ src dst, NodePath kinds (bindingPath src dst ++ ["firewall"])
  bindingName : ∀ src dst,
    kinds (bindingPath src dst ++ ["firewall", "name"]) = .single
  stateNode : ∀ state, NodePath kinds
    ["firewall", "global-options", "state-policy", state]
  stateAction : ∀ state, kinds
    ["firewall", "global-options", "state-policy", state, "action"] = .single

/-- A device takes a batch or leaves the configuration as it was.  What it takes
it can render; zones have proper names and are bound to zones that exist. -/
structure Device where
  schema : CommandSchema
  accepts : Cfg → Bool
  rendered : ∀ root, accepts root = true → Rendered schema.toSchema root
  zoneName : ∀ root, accepts root = true → ∀ name zone,
    subtree (zoneBase name) root = some zone → isZoneName name = true
  boundZone : ∀ root, accepts root = true → ∀ src dst binding,
    subtree (bindingPath src dst) root = some binding →
      ∃ zone, subtree (zoneBase src) root = some zone

/-! ### A device to run on -/

def vyosCommands : CommandSchema where
  toSchema := vyosSchema
  defaultAction chain := by cases chain <;> rfl
  ruleDescription chain number := by
    cases chain with
    | base chain => cases chain <;> rfl
    | name ruleset => rfl
  ruleAction chain number := by
    cases chain with
    | base chain => cases chain <;> rfl
    | name ruleset => rfl
  binding _ _ := by
    simp [vyosSchema, vyosKind, bindingPath, NodePath, Kinds.below]
  bindingName _ _ := by simp [vyosSchema, vyosKind, bindingPath]
  stateNode _ := ⟨rfl, rfl, rfl, rfl, trivial⟩
  stateAction _ := rfl

/-- A zone has a proper name, is local or has interfaces, and is bound to zones
and rulesets that exist. -/
def zonesCheck (root : Cfg) : Bool :=
  let zones := (nodeAt ["firewall", "zone"] root).entries
  let rulesets := (nodeAt ["firewall", "ipv4", "name"] root).entries
  zones.all fun (name, zone) => isZoneName name &&
    (has zone "local-zone" ||
      childList (childNode zone "member") "interface" ≠ []) &&
    (childNode zone "from").entries.all fun (src, binding) =>
      zones.any (·.1 = src) &&
        (childStr (childNode binding "firewall") "name").all fun ruleset =>
          rulesets.any (·.1 = ruleset)

/-- The groups that rules match are there. -/
def groupsCheck (root : Cfg) : Bool :=
  (allChains root).all fun chain =>
    (ruleEntries root chain).all fun (_, rule) =>
      [Side.source, .destination].all fun side =>
        let endpoint := parseEndpoint rule side
        let known := fun node name =>
          has (nodeAt ["firewall", "group", node] root) name
        (endpoint.groupType.all fun node =>
          endpoint.groupName.all (known node)) &&
          endpoint.ifaceGroup.all (known "interface-group")

/-- What a commit checks. -/
def vyosAccepts : Cfg → Bool
  | .node entries => renderedCheck (.node entries) &&
      zonesCheck (.node entries) && groupsCheck (.node entries)
  | _ => false

section Accepted

variable {root : Cfg} (accepted : vyosAccepts root = true)
include accepted

theorem rendered_of_accepted : Rendered vyosSchema root := by
  cases root with
  | node entries =>
      rw [vyosAccepts, Bool.and_eq_true, Bool.and_eq_true] at accepted
      exact rendered_of_check rfl accepted.1.1
  | _ => cases accepted

theorem zones_of_accepted : zonesCheck root = true := by
  cases root with
  | node entries =>
      rw [vyosAccepts, Bool.and_eq_true, Bool.and_eq_true] at accepted
      exact accepted.1.2
  | _ => cases accepted

theorem zoneName_of_accepted {name : String} {zone : Cfg}
    (found : subtree (zoneBase name) root = some zone) :
    isZoneName name = true := by
  have checks := zones_of_accepted accepted
  simp only [zonesCheck, List.all_eq_true, Bool.and_eq_true] at checks
  have rendered := rendered_of_accepted accepted
  exact (checks (name, zone) ((mem_nodeAt_entries rendered.conforms
    (by simp)).mpr found)).1.1

theorem boundZone_of_accepted {src dst : String} {binding : Cfg}
    (found : subtree (bindingPath src dst) root = some binding) :
    ∃ zone, subtree (zoneBase src) root = some zone := by
  have checks := zones_of_accepted accepted
  simp only [zonesCheck, List.all_eq_true, Bool.and_eq_true] at checks
  have rendered := rendered_of_accepted accepted
  have split : bindingPath src dst = zoneBase dst ++ ["from", src] := rfl
  have above := found
  rw [split, subtree_append, Option.bind_eq_some_iff] at above
  obtain ⟨zone, inZones, _⟩ := above
  have each := (checks (dst, zone) ((mem_nodeAt_entries rendered.conforms
    (by simp)).mpr inZones)).2 (src, binding)
  rw [childNode_of_subtree inZones, mem_nodeAt_entries rendered.conforms
    (by simp [zoneBase])] at each
  obtain ⟨⟨name, other⟩, member, same⟩ := List.any_eq_true.mp (each found).1
  cases of_decide_eq_true same
  exact ⟨other, (mem_nodeAt_entries rendered.conforms (by simp)).mp member⟩

end Accepted

def vyosDevice : Device where
  schema := vyosCommands
  accepts := vyosAccepts
  rendered _ accepted := rendered_of_accepted accepted
  zoneName _ accepted _ _ := zoneName_of_accepted accepted
  boundZone _ accepted _ _ _ := boundZone_of_accepted accepted

/-! ### Forms to run with -/

/-- A new zone of one interface. -/
def plainZone (name iface : String) : ZoneUpdate where
  name := name
  display := name
  description := none
  isLocal := false
  interfaces := [iface]
  defaultAction := some .drop
  defaultLog := false
  intraZone := none
  originalName := none

def renamedZone (before after iface : String) : ZoneUpdate :=
  { plainZone after iface with originalName := some before }

/-- An Allow rule that matches nothing else than its sides. -/
def allowRule (number : Nat) (source target : EndpointSelection) :
    RuleUpdate where
  rule := number
  name := none
  action := .accept
  source := source
  target := target
  policy := none
  enabled := true
  log := false
  ips := false

/-! ### Running -/

/-- The console on a device. -/
def console (device : Device) (locale : Locale) (Initial : Cfg → Prop) :
    TransitionSystem Cfg Operation where
  Initial := Initial
  next root operation :=
    match operation.commands locale (fetchFirewall locale root) with
    | .error _ => none
    | .ok commands =>
        let after := executeAll device.schema.kinds commands root
        if device.accepts after then some after else none

theorem console_next {device : Device} {locale : Locale}
    {Initial : Cfg → Prop} {root after : Cfg} {operation : Operation} :
    (console device locale Initial).next root operation = some after ↔
      ∃ commands,
        operation.commands locale (fetchFirewall locale root) = .ok commands ∧
        after = executeAll device.schema.kinds commands root ∧
        device.accepts after = true := by
  simp only [console]
  cases operation.commands locale (fetchFirewall locale root) with
  | error reason => simp
  | ok commands =>
      simp only [Option.ite_none_right_eq_some, Option.some.injEq,
        Except.ok.injEq, exists_eq_left']
      constructor
      · rintro ⟨accepted, rfl⟩
        exact ⟨rfl, accepted⟩
      · rintro ⟨rfl, accepted⟩
        exact ⟨accepted, rfl⟩

end QuartzFire.Firewall
