import QuartzFire.Foundation.ConfigFootprint
import QuartzFire.Foundation.Fallible
import QuartzFire.Firewall.DiffRule

/-!
# Where the commands of a save write

After the scopes of a saved rule are settled, its name aside everything is
written into the copies of the rule, into groups and into the baseline of the
forward chain.
-/

namespace QuartzFire.Firewall

/-- What a save writes into the copies of its rule, the name aside, and into
groups. -/
inductive CopyPath (place : RulePlacement) : Path → Prop where
  | body {chain : RuleChain} {leaf : String} {more : Path} :
      chain ∈ place.chains → leaf ≠ "description" →
      CopyPath place (ruleBase chain place.rule ++ leaf :: more)
  | group (rest : Path) : CopyPath place ("firewall" :: "group" :: rest)

/-- The hidden rules at the top of the forward chain. -/
inductive BaselinePath : Path → Prop where
  | rule {number : String} (more : Path) : number = "1" ∨ number = "2" →
      BaselinePath (filterBase (.base .forward) ++ "rule" :: number :: more)

section Saving

variable {place : RulePlacement} {chain : RuleChain}

theorem copyPaths_leafWrites {leaf : String} {rest : Path}
    (other : leaf ≠ "description") (live : RuleChain → Option String)
    (desired : Option String) :
    Along (CopyPath place)
      (leafWrites place.chains place.rule (leaf :: rest) live desired) := by
  refine .flatMap fun chain member => .ite (fun _ => .nil) fun _ => ?_
  cases desired with
  | none => exact .single (.body member other)
  | some text =>
      refine .single ?_
      rw [Command.path, List.append_assoc]
      exact .body member other

theorem copyPaths_flagWrites {leaf : String} (other : leaf ≠ "description")
    (live : RuleChain → Bool) (desired : Bool) :
    Along (CopyPath place)
      (flagWrites place.chains place.rule leaf live desired) :=
  .flatMap fun _ member => .ite (fun _ => .nil) fun _ => .ite
    (fun _ => .single (.body member other))
    fun _ => .single (.body member other)

theorem copyPaths_ipsMarks (member : chain ∈ place.chains) :
    Along (CopyPath place) (ipsMarks (ruleBase chain place.rule)) :=
  .cons (.body member (by decide)) (.cons (.body member (by decide))
    (.single (.body member (by decide))))

theorem copyPaths_ipsUnmarks (member : chain ∈ place.chains) :
    Along (CopyPath place) (ipsUnmarks (ruleBase chain place.rule)) :=
  .cons (.body member (by decide)) (.cons (.body member (by decide))
    (.single (.body member (by decide))))

theorem copyPaths_diffAction (live : Option FirewallRule)
    (update : RuleUpdate) :
    Along (CopyPath place) (diffAction live place update) := by
  refine .append (copyPaths_leafWrites (by decide) _ _)
    (.flatMap fun chain member => ?_)
  exact .ite (fun _ => copyPaths_ipsMarks member)
    fun _ => .ite (fun _ => copyPaths_ipsUnmarks member) fun _ => .nil

theorem copyPaths_seedPolicy (cfg : FirewallConfig) (name : String) :
    Along (CopyPath place) (seedPolicy cfg name) := by
  refine .ite (fun _ => .nil) fun _ => ?_
  cases builtinPolicy name with
  | none => exact .nil
  | some builtin => exact .cons (.group _) (.map fun _ _ => .group _)

/-! ### The baseline -/

theorem baselinePaths_ipsFlowRuleCommands :
    Along BaselinePath
      (ipsFlowRuleCommands (filterBase (.base .forward))) :=
  .cons (.rule _ (.inl rfl)) (.cons (.rule _ (.inl rfl))
    (.cons (.rule _ (.inl rfl)) (.cons (.rule _ (.inl rfl))
      (.single (.rule _ (.inl rfl))))))

/-! ### Sides -/

theorem copyPaths_markGroup (node name : String) (live : Option AutoGroup) :
    Along (CopyPath place) (markGroup node name live) :=
  .ite (fun _ => .single (.group _)) fun _ => .nil

theorem copyPaths_diffLeaf (node name leaf : String)
    (live desired : List String) :
    Along (CopyPath place)
      (diffLeaf (groupPath node name ++ [leaf]) live desired) :=
  .append (.map fun _ _ => .group _) (.map fun _ _ => .group _)

theorem copyPaths_stale (place : RulePlacement) (live : Option AutoGroup)
    (node : AutoGroup → String) (kept : Option String) :
    Along (CopyPath place) (live.toList.filterMap fun auto =>
      if some auto.name = kept then none
      else some (.delete (groupPath (node auto) auto.name))) := by
  intro command member
  obtain ⟨auto, _, made⟩ := List.mem_filterMap.mp member
  obtain ⟨_, same⟩ := Option.ite_none_left_eq_some.mp made
  cases same
  exact .group _

theorem copyPaths_planReference (rule : Nat) (side : Side)
    (liveAuto : Option AutoGroup) (family : Option AliasType)
    (aliases inlines taken : List String) :
    Along (CopyPath place)
      (planReference rule side liveAuto family aliases inlines taken).1 := by
  have stale := copyPaths_stale place liveAuto AutoGroup.node
  unfold planReference
  split
  · exact stale none
  · split
    · exact stale _
    · exact .append (.append (.append (copyPaths_markGroup _ _ _)
        (copyPaths_diffLeaf _ _ _ _ _)) (copyPaths_diffLeaf _ _ _ _ _))
        (stale _)

theorem copyPaths_planInterfaces {rule : Nat} {side : Side}
    {liveAuto : Option AutoGroup} {named interfaces taken : List String}
    {planned : List VyosCommand × Option String × Option String × List String}
    (plan : planInterfaces rule side liveAuto named interfaces taken =
      .ok planned) : Along (CopyPath place) planned.1 := by
  have stale := copyPaths_stale place liveAuto fun _ => "interface-group"
  unfold planInterfaces at plan
  split at plan
  · cases plan
    exact stale _
  · cases plan
  · cases plan
    exact stale _
  · cases plan
    exact stale _
  · cases plan
    exact .append (.append (copyPaths_markGroup _ _ _)
      (copyPaths_diffLeaf _ _ _ _ _)) (stale _)

theorem copyPaths_planEndpoint {rule : Nat} {side : Side}
    {live : Option RuleEndpoint} {selection : EndpointSelection}
    {autoGroups : List AutoGroup} {taken : List String} {plan : EndpointPlan}
    (planned : planEndpoint rule side live selection autoGroups taken =
      .ok plan) : Along (CopyPath place) plan.commands := by
  obtain ⟨family, _, planned⟩ := bind_eq_ok.mp planned
  obtain ⟨interfaces, chosen, planned⟩ := bind_eq_ok.mp planned
  cases planned
  exact .append (copyPaths_planReference _ _ _ _ _ _ _)
    (copyPaths_planInterfaces chosen)

theorem copyPaths_endpointWrites (member : chain ∈ place.chains) (side : Side)
    (live : Option RuleEndpoint) (desired : EndpointDesired) :
    Along (CopyPath place)
      (endpointWrites (ruleBase chain place.rule) side live desired) := by
  have inMatch : ∀ more, CopyPath place
      (ruleBase chain place.rule ++ side.text :: more) :=
    fun more => .body member (by cases side <;> decide)
  have inIface : ∀ more, CopyPath place
      (ruleBase chain place.rule ++ side.ifaceNode :: more) :=
    fun more => .body member (by cases side <;> decide)
  refine .append (.append (.append ?_ ?_) (.ite (fun _ => .nil) fun _ => ?_))
    (.ite (fun _ => .nil) fun _ => .append (.ite (fun _ => .nil) fun _ => ?_)
      ?_)
  · split
    · exact .ite (fun _ => .single (inMatch _)) fun _ => .nil
    · exact .nil
  · split
    · exact .ite (fun _ => .single (inMatch _)) fun _ => .nil
    · exact .nil
  · split
    · exact .single (inMatch _)
    · exact .single (inMatch _)
  · exact .single (inIface _)
  · split
    · exact .single (inIface _)
    · exact .single (inIface _)
    · exact .nil

theorem copyPaths_diffSides (live : Option FirewallRule)
    (source target : EndpointDesired) :
    Along (CopyPath place) (diffSides live place source target) :=
  .flatMap fun _ member => .append (copyPaths_endpointWrites member _ _ _)
    (copyPaths_endpointWrites member _ _ _)

theorem copyPaths_diffPolicyMatch (live : Option FirewallRule)
    (update : RuleUpdate) (cfg : FirewallConfig) :
    Along (CopyPath place) (diffPolicyMatch live place update cfg) := by
  refine .append (.append ?_ (copyPaths_leafWrites (by decide) _ _))
    (copyPaths_leafWrites (by decide) _ _)
  cases update.policy.bind RulePolicyChoice.policyName with
  | none => exact .nil
  | some name => exact copyPaths_seedPolicy cfg name

end Saving

/-! ## The whole save -/

/-- The commands of a save, taken apart: the scopes are settled, the action is
written, the chain inspects flows if that is asked for, the name is written,
then the rest of the copies, and the baseline of a rule that logs. -/
structure SaveParts (locale : Locale) (live : Option FirewallRule)
    (update : RuleUpdate) (cfg : FirewallConfig) where
  place : RulePlacement
  flow : List VyosCommand
  names : List VyosCommand
  body : List VyosCommand
  baseline : List VyosCommand
  placed : placeRule locale live update cfg = .ok place
  flow_eq : flow = [] ∨ ∃ out, flow = ensureIpsFlowBaseline out cfg
  names_eq : names = leafWrites place.chains place.rule ["description"]
    (fun chain => (bodyAt (if place.moved then none else live) chain).bind
      FirewallRule.name) (update.name.bind trimmed)
  body_paths : Along (CopyPath place) body
  baseline_eq : baseline = [] ∨ baseline = ensureForwardBaseline cfg

namespace SaveParts

variable {locale : Locale} {live : Option FirewallRule} {update : RuleUpdate}
  {cfg : FirewallConfig}

/-- The batch the parts make up. -/
def commands (parts : SaveParts locale live update cfg) : List VyosCommand :=
  diffScopes live parts.place cfg ++
    (diffAction (if parts.place.moved then none else live) parts.place update ++
      (parts.flow ++ (parts.names ++ (parts.body ++ parts.baseline))))

end SaveParts

theorem diffRule_parts {locale : Locale} {live : Option FirewallRule}
    {update : RuleUpdate} {cfg : FirewallConfig} {commands : List VyosCommand}
    (saved : diffRule locale live update cfg = .ok commands) :
    ∃ parts : SaveParts locale live update cfg,
      commands = parts.commands := by
  obtain ⟨place, placed, saved⟩ := bind_eq_ok.mp saved
  obtain ⟨source, fromPlan, saved⟩ := bind_eq_ok.mp saved
  obtain ⟨target, toPlan, saved⟩ := bind_eq_ok.mp saved
  cases saved
  generalize inPlace : (if place.moved then none else live) = live'
    at fromPlan toPlan
  refine ⟨{
    place := place
    flow := if update.wantIps && !live'.any FirewallRule.ips then
      ensureIpsFlowBaseline (diffScopes live place cfg ++
        diffAction live' place update) cfg else []
    names := leafWrites place.chains place.rule ["description"]
      (fun chain => (bodyAt live' chain).bind FirewallRule.name)
      (update.name.bind trimmed)
    body := source.commands ++ target.commands ++
      diffSides live' place source.desired target.desired ++
      diffPolicyMatch live' place update cfg ++
      (flagWrites place.chains place.rule "disable"
        (fun chain => !((bodyAt live' chain).map FirewallRule.enabled).getD
          true) (!update.enabled) ++
      flagWrites place.chains place.rule "log"
        (fun chain => (bodyAt live' chain).any FirewallRule.log) update.log)
    baseline := if update.log && place.chain = .base .forward then
      ensureForwardBaseline cfg else []
    placed := placed
    flow_eq := ?_
    names_eq := by rw [inPlace]
    body_paths := ?_
    baseline_eq := ?_ }, ?_⟩
  · split
    · exact .inr ⟨_, rfl⟩
    · exact .inl rfl
  · exact .append (.append (.append (.append (copyPaths_planEndpoint fromPlan)
      (copyPaths_planEndpoint toPlan)) (copyPaths_diffSides _ _ _))
      (copyPaths_diffPolicyMatch _ _ _))
      (.append (copyPaths_flagWrites (by decide) _ _)
        (copyPaths_flagWrites (by decide) _ _))
  · split
    · exact .inr rfl
    · exact .inl rfl
  · simp only [SaveParts.commands, diffFlags, inPlace, List.append_assoc]

end QuartzFire.Firewall
