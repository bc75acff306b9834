import QuartzFire.Inspection.Resolve

/-!
# Resyncs and views that fail

Where every call fails, a resync finds no content filter and no rule, as if
there were none, and saves that.  So what was enforced is kept only where the
view is there to be read, or where there was nothing to lose.
-/

namespace QuartzFire.SslInspection

open Replication Nft

/-! ## The service in two configurations -/

abbrev SameService (left right : ConfigRead) : Prop :=
  ConfigRead.AgreeBelow base left right

/-- The model is the same, but for the content filter. -/
theorem attach_readService {left right : ConfigRead}
    (same : SameService left right) (filter : Option ContentFilter) :
    (readService left).attach filter = (readService right).attach filter := by
  have present : left.existsAt base = right.existsAt base := by
    simpa using same.existsAt []
  have policy : ∀ num, readPolicy left num = readPolicy right num := by
    intro num
    simp only [readPolicy, same.existsAt, same.returnValue]
  unfold readService
  rw [present]
  split
  · rfl
  · simp only [Model.attach, same.existsAt, same.listNodes, same.returnValue,
      same.returnValues, readPort, funext policy]

/-! ## Snapshots -/

/-- What is saved after the configuration was read, with the content filter
found then. -/
def snapshotOf (conf : ConfigRead) (filter : Option ContentFilter) : Desired :=
  ⟨(readService conf).attach filter, resolveLive (readService conf) conf⟩

theorem commitDesired_eq (conf : ConfigRead) :
    commitDesired conf = snapshotOf conf (readService conf).contentFilter := rfl

/-- The filter makes no difference to the matches. -/
theorem resolveLive_attach (model : Model) (filter : Option ContentFilter)
    (conf : ConfigRead) :
    resolveLive (model.attach filter) conf = resolveLive model conf := rfl

theorem standaloneApply_snapshotOf (last conf : ConfigRead)
    (filter : Option ContentFilter) :
    standaloneApply (snapshotOf last filter) conf =
      ⟨(readService last).attach (readContentFilter conf),
        resolveLive (readService last) conf⟩ := rfl

/-- A resync that reads the configuration saves what it is now. -/
theorem standaloneApply_readable {last conf : ConfigRead}
    (same : SameService last conf) (filter : Option ContentFilter) :
    standaloneApply (snapshotOf last filter) conf =
      snapshotOf conf (readContentFilter conf) := by
  have model := attach_readService same (readContentFilter conf)
  have resolved : resolveLive (readService last) conf =
      resolveLive (readService conf) conf := by
    rw [← resolveLive_attach _ (readContentFilter conf), model,
      resolveLive_attach]
  rw [standaloneApply_snapshotOf, snapshotOf, model, resolved]

theorem contentFilter_readService {conf : ConfigRead}
    (present : conf.existsAt base = true) :
    (readService conf).contentFilter = readContentFilter conf := by
  rw [readService, present]
  rfl

theorem readService_absent {conf : ConfigRead}
    (absent : conf.existsAt base = false) : readService conf = {} := by
  rw [readService, absent]
  rfl

/-- With the service the two are the same; without it nothing is rendered of
the filter. -/
theorem rendered_snapshotOf (conf : ConfigRead) :
    (snapshotOf conf (readContentFilter conf)).rendered =
      (commitDesired conf).rendered := by
  rw [commitDesired_eq]
  cases present : conf.existsAt base with
  | true => rw [contentFilter_readService present]
  | false =>
      have off : (readService conf).enabled = false := by
        rw [readService_absent present]
      have rendered : ∀ filter, (snapshotOf conf filter).rendered =
          ([.text fragmentHeader, .text
            "# SSL inspection is disabled — no interception configured.\n"],
            tableReset ++ "delete table inet qz_ssl\n") := fun filter =>
        congrArg₂ Prod.mk (squidFragment_disabled off)
          (nftRuleset_disabled off _ _)
      rw [rendered, rendered]

/-! ## Without a view -/

/-- No policy that is enabled has a rule. -/
def NothingToInspect (conf : ConfigRead) : Prop :=
  ∀ policy ∈ (readService conf).enabledPolicies,
    readRuleCfg conf policy.ruleset policy.rule = none

def danglingProblem (policy : Policy) : Problem :=
  ⟨policy.rule, "target firewall ipv4 " ++ policy.ruleset ++ " filter rule " ++
    toString policy.rule ++ " does not exist", true⟩

theorem resolvePolicy_none {conf : ConfigRead} {policy : Policy}
    (absent : readRuleCfg conf policy.ruleset policy.rule = none) :
    resolvePolicy conf policy = ⟨none, some (danglingProblem policy), []⟩ := by
  rw [resolvePolicy, absent]
  rfl

theorem problem_dangling {conf : ConfigRead} {policy : Policy}
    {problem : Problem} (told : (resolvePolicy conf policy).problem = some problem)
    (dangling : problem.dangling = true) :
    readRuleCfg conf policy.ruleset policy.rule = none := by
  unfold resolvePolicy at told
  cases read : readRuleCfg conf policy.ruleset policy.rule with
  | none => rfl
  | some cfg =>
      rw [read] at told
      dsimp only at told
      split at told
      · cases told
      · cases told
        cases dangling

theorem readRuleCfg_unavailable (ruleset : String) (rule : Nat) :
    readRuleCfg .unavailable ruleset rule = none := rfl

/-- All problems are told, and none but dangling ones, only if no rule is
there. -/
theorem rules_absent {conf : ConfigRead} {policies : List Policy}
    (all : policies.filterMap (fun policy =>
        (resolvePolicy conf policy).problem) = policies.map danglingProblem) :
    ∀ policy ∈ policies,
      readRuleCfg conf policy.ruleset policy.rule = none := by
  induction policies with
  | nil => simp
  | cons policy rest ih =>
      cases told : (resolvePolicy conf policy).problem with
      | none =>
          have fewer := congrArg List.length all
          simp only [List.filterMap_cons, told, List.length_map,
            List.length_cons] at fewer
          have most := List.length_filterMap_le
            (fun policy => (resolvePolicy conf policy).problem) rest
          omega
      | some problem =>
          simp only [List.filterMap_cons, told, List.map_cons,
            List.cons.injEq] at all
          obtain ⟨first, later⟩ := all
          intro other member
          rcases List.mem_cons.mp member with rfl | listed
          · exact problem_dangling told (by rw [first]; rfl)
          · exact ih later other listed

/-- What is saved where no rule is there. -/
theorem resolveLive_missing {model : Model} {conf : ConfigRead}
    (missing : ∀ policy ∈ model.enabledPolicies,
      readRuleCfg conf policy.ruleset policy.rule = none) :
    resolveLive model conf =
      { found := (model.enabledPolicies.map fun policy =>
          (policy.rule, none)).reverse
        problems := model.enabledPolicies.map danglingProblem
        caScope := model.caDownloadInterfaces } := by
  have outcome : ∀ policy ∈ model.enabledPolicies, resolvePolicy conf policy =
      ⟨none, some (danglingProblem policy), []⟩ := fun policy member =>
    resolvePolicy_none (missing policy member)
  have found : model.enabledPolicies.map (fun policy =>
      (policy.rule, (resolvePolicy conf policy).found)) =
        model.enabledPolicies.map fun policy => (policy.rule, none) :=
    List.map_congr_left fun policy member => by rw [outcome policy member]
  have problems : model.enabledPolicies.filterMap (fun policy =>
      (resolvePolicy conf policy).problem) =
        model.enabledPolicies.map danglingProblem := by
    rw [← List.filterMap_eq_map]
    exact List.filterMap_congr fun policy member => by
      rw [outcome policy member]
      rfl
  have inbound : (model.enabledPolicies.map (resolvePolicy conf)).flatMap
      Outcome.inbound = [] := by
    rw [List.flatMap_eq_nil_iff]
    intro contributed member
    obtain ⟨policy, listed, rfl⟩ := List.mem_map.mp member
    rw [outcome policy listed]
  have scope : caScopeOf model (model.enabledPolicies.map
      (resolvePolicy conf)) = model.caDownloadInterfaces := by
    unfold caScopeOf
    split
    · rename_i unset
      rw [inbound, unset]
      exact List.mergeSort_nil
    · rfl
  rw [resolveLive, found, problems, scope]

theorem resolveLive_eq_unavailable {model : Model} {conf : ConfigRead} :
    resolveLive model .unavailable = resolveLive model conf ↔
      ∀ policy ∈ model.enabledPolicies,
        readRuleCfg conf policy.ruleset policy.rule = none := by
  rw [resolveLive_missing fun policy _ =>
    readRuleCfg_unavailable policy.ruleset policy.rule]
  constructor
  · intro same
    exact rules_absent (congrArg Resolved.problems same).symm
  · intro missing
    exact (resolveLive_missing missing).symm

/-- A resync without a view keeps the snapshot if and only if there was
nothing in it. -/
theorem standaloneApply_unavailable (conf : ConfigRead)
    (filter : Option ContentFilter) :
    standaloneApply (snapshotOf conf filter) .unavailable =
        snapshotOf conf filter ↔
      filter = none ∧ NothingToInspect conf := by
  have unseen : readContentFilter .unavailable = none := rfl
  rw [standaloneApply_snapshotOf, unseen, snapshotOf, Desired.mk.injEq,
    resolveLive_eq_unavailable]
  refine and_congr_left fun _ => ⟨fun same => ?_, fun none => by rw [none]⟩
  exact (congrArg Model.contentFilter same).symm

/-! ## Sequences of resyncs -/

/-- Each resync without a view renders and saves what the snapshot before it
was, and each other one renders what a commit of the configuration would. -/
def KeepsEnforcement (desired : Desired) : List (Option ConfigRead) → Prop
  | [] => True
  | none :: views =>
      let after := standaloneApply desired .unavailable
      (after.rendered = desired.rendered ∧ after = desired) ∧
        KeepsEnforcement after views
  | some conf :: views =>
      let after := standaloneApply desired conf
      after.rendered = (commitDesired conf).rendered ∧
        KeepsEnforcement after views

/-- No view fails while there is a content filter or an enabled policy has its
rule in the configuration that was read last. -/
def Harmless (filter : Option ContentFilter) (last : ConfigRead) :
    List (Option ConfigRead) → Prop
  | [] => True
  | none :: views =>
      (filter = none ∧ NothingToInspect last) ∧ Harmless filter last views
  | some conf :: views => Harmless (readContentFilter conf) conf views

theorem keepsEnforcement_snapshotOf {views : List (Option ConfigRead)}
    {last : ConfigRead} {filter : Option ContentFilter}
    (same : ∀ conf, some conf ∈ views → SameService last conf) :
    KeepsEnforcement (snapshotOf last filter) views ↔
      Harmless filter last views := by
  induction views generalizing last filter with
  | nil => exact Iff.rfl
  | cons view views ih =>
      cases view with
      | none =>
          have later : ∀ conf, some conf ∈ views → SameService last conf :=
            fun conf member => same conf (by simp [member])
          rw [KeepsEnforcement, Harmless,
            ← standaloneApply_unavailable last filter]
          constructor
          · rintro ⟨⟨_, kept⟩, rest⟩
            rw [kept] at rest
            exact ⟨kept, (ih later).mp rest⟩
          · rintro ⟨kept, rest⟩
            rw [kept]
            exact ⟨⟨rfl, rfl⟩, (ih later).mpr rest⟩
      | some conf =>
          have here : SameService last conf := same conf (by simp)
          have later : ∀ other, some other ∈ views → SameService conf other :=
            fun other member => here.symm.trans (same other (by simp [member]))
          rw [KeepsEnforcement, Harmless, standaloneApply_readable here,
            rendered_snapshotOf]
          exact (and_iff_right rfl).trans (ih later)

/-- From a committed snapshot on, while the service is not changed. -/
theorem keepsEnforcement_iff_harmless (start : ConfigRead)
    (views : List (Option ConfigRead))
    (same : ∀ conf, some conf ∈ views → SameService start conf) :
    KeepsEnforcement (commitDesired start) views ↔
      Harmless (readService start).contentFilter start views := by
  rw [commitDesired_eq]
  exact keepsEnforcement_snapshotOf same

section Examples

def serviceNode : ConfigTree String :=
  .node [("quartzfire", .node [("ssl-inspection", .node [
    ("enable", .node []),
    ("policy", .node [("20", .node [])])])])]

/-- The policy is on a rule for one interface. -/
def inspectedFrom (iface : String) : ConfigRead :=
  .ofTree (.node [
    ("service", serviceNode),
    ("firewall", .node [("ipv4", .node [("forward", .node [("filter", .node
      [("rule", .node [("20", .node [
        ("inbound-interface", .node [("name", .value iface)])])])])])])])])

/-- The rule is moved to another interface. -/
theorem moved_rule_followed :
    KeepsEnforcement (commitDesired (inspectedFrom "eth1"))
      [some (inspectedFrom "eth1"), some (inspectedFrom "eth2")] := by
  refine (keepsEnforcement_iff_harmless (inspectedFrom "eth1") _ ?_).mpr trivial
  have below : ∀ (iface : String) (path : List String),
      (inspectedFrom iface).existsAt (base ++ path) =
          (inspectedFrom "eth1").existsAt (base ++ path) ∧
        (inspectedFrom iface).listNodes (base ++ path) =
          (inspectedFrom "eth1").listNodes (base ++ path) ∧
        (inspectedFrom iface).returnValue (base ++ path) =
          (inspectedFrom "eth1").returnValue (base ++ path) ∧
        (inspectedFrom iface).returnValues (base ++ path) =
          (inspectedFrom "eth1").returnValues (base ++ path) :=
    fun iface path => ⟨rfl, rfl, rfl, rfl⟩
  have same : ∀ iface, SameService (inspectedFrom "eth1")
      (inspectedFrom iface) := fun iface => {
    existsAt := fun path => (below iface path).1.symm
    listNodes := fun path => (below iface path).2.1.symm
    returnValue := fun path => (below iface path).2.2.1.symm
    returnValues := fun path => (below iface path).2.2.2.symm }
  intro conf member
  simp only [List.mem_cons, Option.some.injEq, List.not_mem_nil,
    or_false] at member
  rcases member with rfl | rfl
  · exact same "eth1"
  · exact same "eth2"

/-- The redirect of a committed policy is gone after one view that fails, and
so is its match in what is saved. -/
theorem unavailable_view_drops_redirect :
    let committed := commitDesired (inspectedFrom "eth1")
    let after := standaloneApply committed .unavailable
    commit (inspectedFrom "eth1") none none = some committed ∧
      steering committed.model committed.resolved.found =
        [⟨[⟨.iifname, .one "eth1"⟩, tlsPort], .redirect 3129⟩] ∧
      steering after.model after.resolved.found = [] ∧
      after.resolved.found = [(20, none)] ∧
      ¬ KeepsEnforcement committed [none] := by
  have found : (commitDesired (inspectedFrom "eth1")).resolved.found =
      [(20, some [⟨.iifname, .one "eth1"⟩])] := by decide +kernel
  have lost : (standaloneApply (commitDesired (inspectedFrom "eth1"))
      .unavailable).resolved.found = [(20, none)] := by decide +kernel
  refine ⟨by decide +kernel, by decide +kernel, by decide +kernel, lost, ?_⟩
  rintro ⟨⟨_, kept⟩, _⟩
  rw [kept, found] at lost
  cases lost

end Examples

end QuartzFire.SslInspection
