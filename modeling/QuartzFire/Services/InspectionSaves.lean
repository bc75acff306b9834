import QuartzFire.Services.Reads

/-!
# Saving the inspection settings

The settings read afterwards are the ones handed on, nothing of another service
changes, and settings that are as they should be come to no command.
-/

namespace QuartzFire.Firewall

open ConfigTree

/-! ## Policies by their paths -/

def sslPolicyAt (root : Cfg) (rule : Nat) : SslPolicy :=
  let text := fun leaf => textAt (sslPolicyBase rule ++ [leaf]) root
  { rule := rule
    ruleset := (text "ruleset").getD "forward"
    action := asSslAction (text "action")
    enabled := !(subtree (sslPolicyBase rule ++ ["disable"]) root).isSome }

theorem parseSslPolicy_at {root cfg : Cfg} {rule : Nat}
    (found : subtree (sslPolicyBase rule) root = some cfg) :
    parseSslPolicy (toString rule) cfg = sslPolicyAt root rule := by
  have flag : has cfg "disable" =
      (subtree (sslPolicyBase rule ++ ["disable"]) root).isSome := by
    rw [subtree_append, found, Option.bind_some, subtree_singleton]
    rfl
  rw [parseSslPolicy, sslPolicyAt, ruleNumber_toString, flag]
  simp only [childStr_eq_below found]
  rfl

theorem sslPolicyAt_congr {root after : Cfg} {rule : Nat}
    (same : subtree (sslPolicyBase rule) after =
      subtree (sslPolicyBase rule) root) :
    sslPolicyAt after rule = sslPolicyAt root rule := by
  have below : ∀ more, subtree (sslPolicyBase rule ++ more) after =
      subtree (sslPolicyBase rule ++ more) root := by
    intro more
    rw [subtree_append, subtree_append, same]
  simp only [sslPolicyAt, textAt_congr (below _), below]

theorem mem_fetchSslPolicies {kinds : Kinds String} {root : Cfg}
    (conforms : Conforms kinds root) (numbered : Numbered sslBase root)
    {policy : SslPolicy} :
    policy ∈ fetchSslPolicies root ↔ ∃ key cfg,
      subtree (sslBase ++ [key]) root = some cfg ∧
        parseSslPolicy key cfg = policy := by
  have proper : sslBase ≠ [] := by decide
  rw [fetchSslPolicies_eq, (List.perm_insertionSort _ _).mem_iff,
    List.mem_filterMap]
  simp only [Prod.exists]
  refine exists₂_congr fun key cfg => ?_
  rw [mem_nodeAt_entries conforms proper]
  refine and_congr_right fun found => ?_
  have digits : key.toList.all Char.isDigit = true := by
    rw [numbered key cfg found, toList_toString]
    exact all_isDigit_digits _
  rw [if_pos digits, Option.some.injEq]

theorem register_sslPolicies (kinds : Kinds String) :
    NodeRegister kinds (Numbered sslBase) sslPolicyBase SslPolicy.rule
      sslPolicyAt fetchSslPolicies where
  apart := fun _ _ different => diverges_numbered different
  here := sslPolicyAt_congr
  reads := by
    intro root conforms numbered
    refine ⟨fun _ => rfl, fun policy => ?_⟩
    rw [mem_fetchSslPolicies conforms numbered]
    constructor
    · rintro ⟨key, cfg, found, rfl⟩
      have decimal := numbered key cfg found
      have there : subtree (sslPolicyBase (ruleNumber key)) root = some cfg := by
        rw [sslPolicyBase, ← decimal]
        exact found
      have rule : (parseSslPolicy key cfg).rule = ruleNumber key := rfl
      rw [rule, there, ← parseSslPolicy_at there, ← decimal]
      exact ⟨rfl, rfl⟩
    · rintro ⟨there, same⟩
      obtain ⟨cfg, found⟩ := Option.isSome_iff_exists.mp there
      refine ⟨toString policy.rule, cfg, found, ?_⟩
      rw [parseSslPolicy_at found, same]

/-! ## One policy -/

/-- What the diff makes of the policy read at its node. -/
def SslPolicy.save (prev : Option SslPolicy) (policy : SslPolicy) :
    RecordSave String :=
  let base := sslPolicyBase policy.rule
  { old := none
    base := base
    isNew := prev.isNone
    fields :=
      [(["action"], leafDiff (base ++ ["action"])
          ((prev.map SslPolicy.action).map SslPolicyAction.text)
          (some policy.action.text)),
        (["ruleset"], leafDiff (base ++ ["ruleset"])
          ((prev.map SslPolicy.ruleset).map fun text => text)
          (some policy.ruleset)),
        (["disable"], flagDiff (base ++ ["disable"])
          (!(prev.map SslPolicy.enabled).getD true) (!policy.enabled))] }

theorem sslAction_text_injective : Function.Injective SslPolicyAction.text := by
  intro left right same
  cases left <;> cases right <;> first | rfl | simp [SslPolicyAction.text] at same

theorem asSslAction_text (action : SslPolicyAction) :
    asSslAction (some action.text) = action := by
  cases action <;> simp [asSslAction, SslPolicyAction.text]

theorem trimmed_sslAction (action : SslPolicyAction) :
    trimmed action.text = some action.text := by
  cases action <;> decide

theorem sslPolicyWrites_eq (prev : Option SslPolicy) (policy : SslPolicy) :
    sslPolicyWrites prev policy = (policy.save prev).commands := by
  have action : ∀ known : SslPolicy, some policy.action.text =
      some known.action.text ↔ policy.action = known.action := by
    intro known
    rw [Option.some.injEq, sslAction_text_injective.eq_iff]
  have body : (policy.save prev).commands = (policy.save prev).body := by
    refine if_neg ?_
    rintro ⟨new, idle⟩
    have new : prev = none := Option.isNone_iff_eq_none.mp new
    simp [SslPolicy.save, RecordSave.body, new, leafDiff,
      QuartzFire.Command.isSet] at idle
  rw [body]
  cases prev with
  | none =>
      simp [SslPolicy.save, RecordSave.body, sslPolicyWrites, leafDiff,
        flagDiff]
      cases policy.enabled <;> rfl
  | some known =>
      simp [SslPolicy.save, RecordSave.body, sslPolicyWrites, leafDiff,
        flagDiff, action]
      cases policy.enabled <;> cases known.enabled <;> rfl

section Policy

variable {kinds : Kinds String} (schema : ServiceSchema kinds)
  {policy : SslPolicy}
include schema

theorem SslPolicy.proper (prev : Option SslPolicy) :
    (policy.save prev).Proper kinds where
  nodes := schema.binding _
  diverge := by
    simp only [SslPolicy.save, List.map_cons, List.map_nil]
    decide
  named := by simp [SslPolicy.save]
  below := by
    intro path commands member
    simp only [SslPolicy.save, List.mem_cons, List.not_mem_nil, or_false,
      Prod.mk.injEq] at member
    rcases member with ⟨rfl, rfl⟩ | ⟨rfl, rfl⟩ | ⟨rfl, rfl⟩
    · exact below_leafDiff _ _ _
    · exact below_leafDiff _ _ _
    · exact below_flagDiff _ _ _
  fresh := by
    intro isNew command member
    have new : prev = none := Option.isNone_iff_eq_none.mp isNew
    simp only [SslPolicy.save, new, RecordSave.body, List.flatMap_cons,
      List.flatMap_nil, List.append_nil, List.mem_append] at member
    rcases member with text | text | flag
    · exact isSet_leafDiff _ text
    · exact isSet_leafDiff _ text
    · exact isSet_flagDiff _ flag
  apart := nofun

variable {root : Cfg} {prev : Option SslPolicy}
  (shown : prev = (subtree (sslPolicyBase policy.rule) root).map fun _ =>
    sslPolicyAt root policy.rule)

omit schema in
include shown in
theorem SslPolicy.shown_flag :
    (!(prev.map SslPolicy.enabled).getD true) =
      (subtree (sslPolicyBase policy.rule ++ ["disable"]) root).isSome := by
  rw [shown, subtree_append]
  cases found : subtree (sslPolicyBase policy.rule) root with
  | none => rfl
  | some cfg => simp [sslPolicyAt, subtree_append, found]

variable (conforms : Conforms kinds root)
include conforms shown

/-- The policy is there, and reads as desired. -/
theorem SslPolicy.read_after (plain : trimmed policy.ruleset = some policy.ruleset) :
    (subtree (sslPolicyBase policy.rule) (executeAll kinds
      (policy.save prev).commands root)).isSome = true ∧
    sslPolicyAt (executeAll kinds (policy.save prev).commands root)
      policy.rule = policy := by
  have proper : (policy.save prev).Proper kinds := SslPolicy.proper schema prev
  have shaped := fun field member =>
    (schema.bindingFields (toString policy.rule) field member).below
      (schema.binding _)
  have known : ∀ value ∈ prev, sslPolicyAt root policy.rule = value := by
    intro value member
    rw [shown] at member
    obtain ⟨_, _, same⟩ := Option.map_eq_some_iff.mp member
    exact same
  have actionField : (["action"], _) ∈ (policy.save prev).fields :=
    List.mem_cons_self
  have rulesetField : (["ruleset"], _) ∈ (policy.save prev).fields :=
    List.mem_cons_of_mem _ List.mem_cons_self
  have flagField : (["disable"], _) ∈ (policy.save prev).fields :=
    List.mem_cons_of_mem _ (List.mem_cons_of_mem _ List.mem_cons_self)
  have action := reads_saved proper conforms asSslAction
    sslAction_text_injective (trimmed_sslAction policy.action)
    (asSslAction_text policy.action) (shaped (["action"], .single) (by simp))
    (fun value member => congrArg SslPolicy.action (known value member))
    actionField
  have ruleset := reads_saved proper conforms (fun text => text.getD "forward")
    Function.injective_id plain rfl (shaped (["ruleset"], .single) (by simp))
    (fun value member => congrArg SslPolicy.ruleset (known value member))
    rulesetField
  have flag : (subtree (sslPolicyBase policy.rule ++ ["disable"])
      (executeAll kinds (policy.save prev).commands root)).isSome =
      !policy.enabled := by
    have yields : Yields kinds (sslPolicyBase policy.rule ++ ["disable"])
        (subtree (sslPolicyBase policy.rule ++ ["disable"]) root) _ _ :=
      yields_flagDiff (shaped (["disable"], .valueless) (by simp))
        (!policy.enabled)
    rw [← SslPolicy.shown_flag shown] at yields
    exact proper.field_at conforms flagField yields
  constructor
  · refine proper.present conforms fun known => ?_
    have isNew : (policy.save prev).isNew = prev.isNone := rfl
    rw [isNew, shown, Option.isNone_map, Option.isNone_eq_false_iff] at known
    exact known
  · have base : (policy.save prev).base = sslPolicyBase policy.rule := rfl
    rw [base] at action ruleset
    simp only [sslPolicyAt, action, ruleset, flag, Bool.not_not]

theorem SslPolicy.targeted :
    Targeted kinds (policy.save prev).commands root := by
  refine (SslPolicy.proper schema prev).targeted conforms nofun
    fun path commands member => ?_
  simp only [SslPolicy.save, List.mem_cons, List.not_mem_nil, or_false,
    Prod.mk.injEq] at member
  rcases member with ⟨rfl, rfl⟩ | ⟨rfl, rfl⟩ | ⟨rfl, rfl⟩
  · exact targets_leafDiff fun none => by cases none
  · exact targets_leafDiff fun none => by cases none
  · rw [SslPolicy.shown_flag shown]
    exact targets_flagDiff _

end Policy

/-! ## The policies -/

/-- What is written at each rule: what its policy needs, or that it goes. -/
def sslPolicyFields (live desired : List SslPolicy) :
    List (Path × List VyosCommand) :=
  (desired.map fun policy => ([toString policy.rule], sslPolicyWrites
    (mapOf (live.map fun policy => (policy.rule, policy)) policy.rule)
      policy)) ++
  (live.filter fun policy => policy.rule ∉ desired.map SslPolicy.rule).map
    fun policy =>
      ([toString policy.rule], [.delete (sslPolicyBase policy.rule)])

theorem policyDiff_eq (live desired : List SslPolicy) :
    policyDiff live desired = (sslPolicyFields live desired).flatMap Prod.snd := by
  rw [policyDiff, sslPolicyFields, List.flatMap_append, List.flatMap_map,
    List.flatMap_map]
  exact congrArg _ List.map_eq_flatMap

section Policies

variable {kinds : Kinds String} (schema : ServiceSchema kinds)
  {live desired : List SslPolicy}

theorem diverge_sslPolicyFields (distinct : (live.map SslPolicy.rule).Nodup)
    (unique : (desired.map SslPolicy.rule).Nodup) :
    ((sslPolicyFields live desired).map Prod.fst).Pairwise Diverges := by
  have rules : (sslPolicyFields live desired).map Prod.fst =
      (desired.map SslPolicy.rule ++ (live.filter fun policy =>
        policy.rule ∉ desired.map SslPolicy.rule).map SslPolicy.rule).map
          fun rule => [toString rule] := by
    simp only [sslPolicyFields, List.map_append, List.map_map]
    rfl
  have nodup : (desired.map SslPolicy.rule ++ (live.filter fun policy =>
      policy.rule ∉ desired.map SslPolicy.rule).map SslPolicy.rule).Nodup := by
    refine List.nodup_append.mpr ⟨unique, ?_, ?_⟩
    · exact distinct.sublist (List.filter_sublist.map _)
    · rintro rule wanted other gone rfl
      obtain ⟨policy, member, rfl⟩ := List.mem_map.mp gone
      exact absurd wanted (by simpa using (List.mem_filter.mp member).2)
  rw [rules, List.pairwise_map]
  refine List.Pairwise.imp (fun {left right} different => ?_) nodup
  have apart : [toString left] ≠ [toString right] := fun same =>
    different (toString_injective (List.cons.inj same).1)
  exact diverges_of_length rfl apart

include schema in
theorem below_sslPolicyFields {field : Path × List VyosCommand}
    (member : field ∈ sslPolicyFields live desired) :
    Below (sslBase ++ field.1) field.2 := by
  rcases List.mem_append.mp member with wanted | gone
  · obtain ⟨policy, _, rfl⟩ := List.mem_map.mp wanted
    rw [sslPolicyWrites_eq]
    exact (SslPolicy.proper schema _).below_base
  · obtain ⟨policy, _, rfl⟩ := List.mem_map.mp gone
    exact .single (List.prefix_refl _)

variable {root : Cfg} (known : Reads SslPolicy.rule
  (fun rule => (subtree (sslPolicyBase rule) root).isSome = true)
  (sslPolicyAt root) live)

include known in
/-- A rule has the policy that is read at its node. -/
theorem mapOf_sslPolicies (rule : Nat) :
    mapOf (live.map fun policy => (policy.rule, policy)) rule =
      (subtree (sslPolicyBase rule) root).map fun _ => sslPolicyAt root rule := by
  cases found : mapOf (live.map fun policy => (policy.rule, policy)) rule with
  | some policy =>
      obtain ⟨other, member, same⟩ := List.mem_map.mp (mapOf_mem found)
      obtain ⟨rfl, rfl⟩ := Prod.mk.inj same
      obtain ⟨cfg, node⟩ := Option.isSome_iff_exists.mp
        (known.listed_of_mem member rfl)
      rw [node, Option.map_some, known.eq_read member rfl]
  | none =>
      cases node : subtree (sslPolicyBase rule) root with
      | none => rfl
      | some cfg =>
          have there : (subtree (sslPolicyBase rule) root).isSome = true := by
            rw [node]
            rfl
          have entry : (rule, sslPolicyAt root rule) ∈
              live.map fun policy => (policy.rule, policy) :=
            List.mem_map.mpr ⟨_, known.mem_read.mpr there, rfl⟩
          obtain ⟨last, held⟩ := mapOf_isSome entry
          rw [found] at held
          cases held

variable (distinct : (live.map SslPolicy.rule).Nodup)
  (unique : (desired.map SslPolicy.rule).Nodup)
include schema known distinct unique

theorem targets_policyDiff :
    Targets kinds sslBase (subtree sslBase root) (policyDiff live desired) := by
  intro tree conforms start
  have same : ∀ rule, subtree (sslPolicyBase rule) tree =
      subtree (sslPolicyBase rule) root := by
    intro rule
    rw [sslPolicyBase, subtree_append, start, ← subtree_append]
  rw [policyDiff_eq]
  refine .fields (diverge_sslPolicyFields distinct unique)
    (fun field => below_sslPolicyFields schema) conforms fun field member => ?_
  rcases List.mem_append.mp member with wanted | gone
  · obtain ⟨policy, _, rfl⟩ := List.mem_map.mp wanted
    intro before conforms' found
    have found : subtree (sslPolicyBase policy.rule) before =
        subtree (sslPolicyBase policy.rule) tree := found
    rw [sslPolicyWrites_eq]
    refine SslPolicy.targeted schema ?_ conforms'
    rw [mapOf_sslPolicies known, sslPolicyAt_congr (found.trans (same _)),
      found, same]
  · obtain ⟨policy, live, rfl⟩ := List.mem_map.mp gone
    refine .clear ?_
    have there := known.listed_of_mem (List.mem_of_mem_filter live) rfl
    rw [← same] at there
    exact there

/-- Each rule reads as desired. -/
theorem yields_policyDiff
    (plain : ∀ policy ∈ desired, trimmed policy.ruleset = some policy.ruleset)
    (rule : Nat) :
    Yields kinds (sslPolicyBase rule) (subtree (sslPolicyBase rule) root)
      (fun after => after.map (parseSslPolicy (toString rule)) =
        desired.find? fun policy => policy.rule = rule)
      (policyDiff live desired) := by
  have separate := separate_fieldsAt (diverge_sslPolicyFields distinct unique)
    fun field => below_sslPolicyFields schema
  have laid : laid (fieldsAt sslBase (sslPolicyFields live desired)) =
      policyDiff live desired := by
    rw [laid_fieldsAt, policyDiff_eq]
  intro tree conforms start
  rw [← laid]
  cases wanted : desired.find? fun policy => policy.rule = rule with
  | some policy =>
      have member := List.mem_of_find?_eq_some wanted
      have numbered : policy.rule = rule := by
        simpa using List.find?_some wanted
      subst numbered
      have field : (⟨[sslPolicyBase policy.rule], _⟩ : Block String) ∈
          fieldsAt sslBase (sslPolicyFields live desired) :=
        List.mem_map.mpr ⟨_, List.mem_append_left _
          (List.mem_map.mpr ⟨policy, member, rfl⟩), rfl⟩
      have yields : Yields kinds (sslPolicyBase policy.rule)
          (subtree (sslPolicyBase policy.rule) tree)
          (fun after => after.map (parseSslPolicy (toString policy.rule)) =
            some policy) (sslPolicyWrites (mapOf (live.map fun policy =>
              (policy.rule, policy)) policy.rule) policy) := by
        intro before conforms' found
        have shown := mapOf_sslPolicies known policy.rule
        rw [← start, ← found, ← sslPolicyAt_congr (found.trans start)] at shown
        obtain ⟨there, reads⟩ :=
          SslPolicy.read_after schema shown conforms' (plain policy member)
        obtain ⟨cfg, node⟩ := Option.isSome_iff_exists.mp there
        rw [sslPolicyWrites_eq, node, Option.map_some, parseSslPolicy_at node,
          reads]
      exact yields.at_leaf _ separate field (List.prefix_refl _) conforms
  | none =>
      have unwanted : ∀ policy ∈ desired, policy.rule ≠ rule := by
        simpa using List.find?_eq_none.mp wanted
      have wanes : Wanes (sslPolicyBase rule) (policyDiff live desired) := by
        refine .append (.flatMap fun policy member => ?_)
          (.map fun policy _ => .inr ⟨_, rfl⟩)
        rw [sslPolicyWrites_eq]
        refine Each.imp (fun _ apart => .inl apart)
          ((SslPolicy.proper schema _).elsewhere ?_ nofun)
        exact diverges_numbered (unwanted policy member)
      rw [laid, Option.map_eq_none_iff]
      by_cases there : ∃ policy ∈ live, policy.rule = rule
      · obtain ⟨policy, member, rfl⟩ := there
        have proper : sslPolicyBase policy.rule ≠ [] := by
          simp [sslPolicyBase]
        have gone : policy ∈ live.filter fun policy =>
            policy.rule ∉ desired.map SslPolicy.rule :=
          List.mem_filter.mpr ⟨member, by simpa using unwanted⟩
        exact wanes.gone proper (List.prefix_refl _)
          (List.mem_append_right _ (List.mem_map.mpr ⟨policy, gone, rfl⟩))
      · refine wanes.absent ?_
        rw [start]
        by_contra node
        exact there ⟨_, known.mem_read.mpr (Option.isSome_iff_ne_none.mpr node),
          rfl⟩

end Policies

/-- Policies that are as desired are left alone. -/
theorem policyDiff_of_same {live desired : List SslPolicy}
    (distinct : (live.map SslPolicy.rule).Nodup)
    (same : ∀ policy, policy ∈ live ↔ policy ∈ desired) :
    policyDiff live desired = [] := by
  rw [policyDiff, List.append_eq_nil_iff, List.flatMap_eq_nil_iff,
    List.map_eq_nil_iff, List.filter_eq_nil_iff]
  constructor
  · intro policy wanted
    have member := (same policy).mpr wanted
    have entry : (policy.rule, policy) ∈
        live.map fun policy => (policy.rule, policy) :=
      List.mem_map.mpr ⟨policy, member, rfl⟩
    obtain ⟨last, found⟩ := mapOf_isSome entry
    obtain ⟨other, inside, pair⟩ := List.mem_map.mp (mapOf_mem found)
    obtain ⟨rule, rfl⟩ := Prod.mk.inj pair
    rw [found, eq_of_key distinct inside member rule, sslPolicyWrites]
    simp only [if_true, List.append_nil]
  · intro policy member
    have wanted := (same policy).mp member
    simp only [decide_eq_true_eq, not_not]
    exact List.mem_map_of_mem wanted

/-! ## The content filter -/

def filterNode : Path := sslNode ++ ["content-filter"]

/-- A filter whose fields are read as they are written. -/
structure SslContentFilter.Plain (filter : SslContentFilter) : Prop where
  host : trimmed filter.icapHost = some filter.icapHost
  port : filter.icapPort ≠ 0
  reqmod : trimmed filter.reqmodService = some filter.reqmodService
  respmod : trimmed filter.respmodService = some filter.respmodService

def SslContentFilter.save (prev : Option SslContentFilter)
    (filter : SslContentFilter) : RecordSave String :=
  { old := none
    base := filterNode
    isNew := prev.isNone
    fields :=
      [(["icap-host"], leafDiff (filterNode ++ ["icap-host"])
          ((prev.map SslContentFilter.icapHost).map fun text => text)
          (some filter.icapHost)),
        (["icap-port"], leafDiff (filterNode ++ ["icap-port"])
          ((prev.map SslContentFilter.icapPort).map toString)
          (some (toString filter.icapPort))),
        (["reqmod-service"], leafDiff (filterNode ++ ["reqmod-service"])
          ((prev.map SslContentFilter.reqmodService).map fun text => text)
          (some filter.reqmodService)),
        (["respmod-service"], leafDiff (filterNode ++ ["respmod-service"])
          ((prev.map SslContentFilter.respmodService).map fun text => text)
          (some filter.respmodService)),
        (["fail-mode"], leafDiff (filterNode ++ ["fail-mode"])
          ((prev.map SslContentFilter.failMode).map FailMode.text)
          (some filter.failMode.text))] }

theorem contentFilterDiff_some (prev : Option SslContentFilter)
    (filter : SslContentFilter) :
    contentFilterDiff prev (some filter) = (filter.save prev).commands := by
  have body : (filter.save prev).commands = (filter.save prev).body := by
    refine if_neg ?_
    rintro ⟨new, idle⟩
    have new : prev = none := Option.isNone_iff_eq_none.mp new
    simp [SslContentFilter.save, RecordSave.body, new, leafDiff,
      QuartzFire.Command.isSet] at idle
  rw [body]
  simp only [contentFilterDiff, SslContentFilter.save, RecordSave.body,
    List.flatMap_cons, List.flatMap_nil, List.append_nil, List.append_assoc,
    Option.map_map]
  cases prev <;> rfl

theorem failMode_text_injective : Function.Injective FailMode.text := by
  intro left right same
  cases left <;> cases right <;> first | rfl | simp [FailMode.text] at same

theorem asFailMode_text (mode : FailMode) :
    asFailMode (some mode.text) = mode := by
  cases mode <;> simp [asFailMode, FailMode.text]

theorem trimmed_failMode (mode : FailMode) :
    trimmed mode.text = some mode.text := by
  cases mode <;> decide

/-- A number other than nought reads as it is written. -/
theorem numberOr_toString {number : Nat} (proper : number ≠ 0)
    (fallback : Nat) : numberOr fallback (some (toString number)) = number := by
  have read : leafNumber (some (toString number)) = number :=
    ruleNumber_toString number
  rw [numberOr, read, if_neg proper]

theorem parseContentFilter_at {root cfg : Cfg}
    (found : subtree filterNode root = some cfg) :
    parseContentFilter cfg =
      { icapHost := (textAt (filterNode ++ ["icap-host"]) root).getD "127.0.0.1"
        icapPort := numberOr 1344 (textAt (filterNode ++ ["icap-port"]) root)
        reqmodService :=
          (textAt (filterNode ++ ["reqmod-service"]) root).getD "request"
        respmodService :=
          (textAt (filterNode ++ ["respmod-service"]) root).getD "response"
        failMode := asFailMode (textAt (filterNode ++ ["fail-mode"]) root) } := by
  simp only [parseContentFilter, childStr_eq_below found]

section Filter

variable {kinds : Kinds String} (schema : ServiceSchema kinds)
include schema

theorem ServiceSchema.contentFilter : NodePath kinds filterNode :=
  ((schema.serviceFields (["content-filter"], .node) (by simp)).below
    schema.service).nodePath

theorem ServiceSchema.contentFilterField {leaf : String}
    (member : leaf ∈ ["icap-host", "icap-port", "reqmod-service",
      "respmod-service", "fail-mode"]) :
    FieldAt kinds (filterNode ++ [leaf]) .single := by
  have field : FieldAt (kinds.below sslNode) ["content-filter", leaf] .single := by
    refine schema.serviceFields (["content-filter", leaf], .single) ?_
    simpa using member
  have placed := field.below schema.service
  exact placed

variable {filter : SslContentFilter}

theorem SslContentFilter.proper (prev : Option SslContentFilter) :
    (filter.save prev).Proper kinds where
  nodes := schema.contentFilter
  diverge := by
    simp only [SslContentFilter.save, List.map_cons, List.map_nil]
    decide
  named := by simp [SslContentFilter.save]
  below := by
    intro path commands member
    simp only [SslContentFilter.save, List.mem_cons, List.not_mem_nil,
      or_false, Prod.mk.injEq] at member
    rcases member with ⟨rfl, rfl⟩ | ⟨rfl, rfl⟩ | ⟨rfl, rfl⟩ | ⟨rfl, rfl⟩ |
      ⟨rfl, rfl⟩ <;> exact below_leafDiff _ _ _
  fresh := by
    intro isNew command member
    have new : prev = none := Option.isNone_iff_eq_none.mp isNew
    simp only [SslContentFilter.save, new, RecordSave.body, List.flatMap_cons,
      List.flatMap_nil, List.append_nil, List.mem_append] at member
    rcases member with host | port | reqmod | respmod | mode
    · exact isSet_leafDiff _ host
    · exact isSet_leafDiff _ port
    · exact isSet_leafDiff _ reqmod
    · exact isSet_leafDiff _ respmod
    · exact isSet_leafDiff _ mode
  apart := nofun

/-- The filter is there, and reads as desired. -/
theorem SslContentFilter.read_after {root : Cfg} (conforms : Conforms kinds root)
    (plain : filter.Plain) :
    (subtree filterNode (executeAll kinds (filter.save
      ((subtree filterNode root).map parseContentFilter)).commands root)).map
        parseContentFilter = some filter := by
  generalize shown : (subtree filterNode root).map parseContentFilter = prev
  have proper : (filter.save prev).Proper kinds :=
    SslContentFilter.proper schema prev
  have known : ∀ value ∈ prev, ∃ cfg, subtree filterNode root = some cfg ∧
      parseContentFilter cfg = value := by
    rintro value rfl
    exact Option.map_eq_some_iff.mp shown
  have there : (subtree filterNode (executeAll kinds
      (filter.save prev).commands root)).isSome = true := by
    refine proper.present conforms fun old => ?_
    have isNew : (filter.save prev).isNew = prev.isNone := rfl
    rw [isNew, ← shown, Option.isNone_map, Option.isNone_eq_false_iff] at old
    exact old
  obtain ⟨cfg, found⟩ := Option.isSome_iff_exists.mp there
  rw [found, Option.map_some, parseContentFilter_at found]
  have host := reads_saved proper conforms (fun text => text.getD "127.0.0.1")
    Function.injective_id plain.host rfl
    (schema.contentFilterField (by decide))
    (fun value member => by
      obtain ⟨cfg, node, rfl⟩ := known value member
      rw [parseContentFilter_at node]
      rfl)
    List.mem_cons_self
  have port := reads_saved proper conforms (numberOr 1344)
    (fun _ _ => toString_injective) (trimmed_toString filter.icapPort)
    (numberOr_toString plain.port _) (schema.contentFilterField (by decide))
    (fun value member => by
      obtain ⟨cfg, node, rfl⟩ := known value member
      rw [parseContentFilter_at node]
      rfl)
    (List.mem_cons_of_mem _ List.mem_cons_self)
  have reqmod := reads_saved proper conforms (fun text => text.getD "request")
    Function.injective_id plain.reqmod rfl
    (schema.contentFilterField (by decide))
    (fun value member => by
      obtain ⟨cfg, node, rfl⟩ := known value member
      rw [parseContentFilter_at node]
      rfl)
    (List.mem_cons_of_mem _ (List.mem_cons_of_mem _ List.mem_cons_self))
  have respmod := reads_saved proper conforms
    (fun text => text.getD "response") Function.injective_id plain.respmod rfl
    (schema.contentFilterField (by decide))
    (fun value member => by
      obtain ⟨cfg, node, rfl⟩ := known value member
      rw [parseContentFilter_at node]
      rfl)
    (List.mem_cons_of_mem _ (List.mem_cons_of_mem _ (List.mem_cons_of_mem _
      List.mem_cons_self)))
  have mode := reads_saved proper conforms asFailMode failMode_text_injective
    (trimmed_failMode filter.failMode) (asFailMode_text filter.failMode)
    (schema.contentFilterField (by decide))
    (fun value member => by
      obtain ⟨cfg, node, rfl⟩ := known value member
      rw [parseContentFilter_at node]
      rfl)
    (List.mem_cons_of_mem _ (List.mem_cons_of_mem _ (List.mem_cons_of_mem _
      (List.mem_cons_of_mem _ List.mem_cons_self))))
  have base : (filter.save prev).base = filterNode := rfl
  rw [base] at host port reqmod respmod mode
  rw [host, port, reqmod, respmod, mode]

/-- What the diff of a filter makes of the one at its node. -/
theorem yields_contentFilterDiff {start : Option Cfg}
    {desired : Option SslContentFilter}
    (plain : ∀ filter ∈ desired, filter.Plain) :
    Yields kinds filterNode start
      (fun after => after.map parseContentFilter = desired)
      (contentFilterDiff (start.map parseContentFilter) desired) := by
  intro tree conforms found
  subst found
  cases desired with
  | some filter =>
      rw [contentFilterDiff_some]
      exact SslContentFilter.read_after schema conforms (plain filter rfl)
  | none =>
      rw [contentFilterDiff, Option.isSome_map]
      split
      · have gone : subtree filterNode (executeAll kinds
            [.delete (sslNode ++ ["content-filter"])] tree) = none :=
          Yields.clear (by decide) tree conforms rfl
        rw [gone]
        rfl
      · rename_i absent
        rw [Bool.not_eq_true, Option.isSome_eq_false_iff,
          Option.isNone_iff_eq_none] at absent
        rw [executeAll, List.foldl_nil, absent]
        rfl

omit schema in
theorem below_contentFilterDiff (live desired : Option SslContentFilter) :
    Below filterNode (contentFilterDiff live desired) := by
  cases desired with
  | none => exact .ite (fun _ => .single (List.prefix_refl _)) fun _ => .nil
  | some filter =>
      have leaf := fun leaf live text =>
        Below.shorten (below_leafDiff (filterNode ++ [leaf]) live text)
      exact .append (.append (.append (.append (leaf _ _ _) (leaf _ _ _))
        (leaf _ _ _)) (leaf _ _ _)) (leaf _ _ _)

omit schema in
theorem contentFilterDiff_self (live : Option SslContentFilter) :
    contentFilterDiff live live = [] := by
  cases live with
  | none => rfl
  | some filter => simp [contentFilterDiff, leafDiff_self]

theorem targets_contentFilterDiff {start : Option Cfg}
    (desired : Option SslContentFilter) :
    Targets kinds filterNode start
      (contentFilterDiff (start.map parseContentFilter) desired) := by
  cases desired with
  | none =>
      rw [contentFilterDiff, Option.isSome_map]
      split
      · rename_i there
        exact .clear there
      · exact .ofSets fun _ inside => absurd inside List.not_mem_nil
  | some filter =>
      intro tree conforms _
      rw [contentFilterDiff_some]
      refine (SslContentFilter.proper schema _).targeted conforms
        (fun _ given => by cases given) fun path commands member => ?_
      simp only [SslContentFilter.save, List.mem_cons, List.not_mem_nil,
        or_false, Prod.mk.injEq] at member
      rcases member with ⟨rfl, rfl⟩ | ⟨rfl, rfl⟩ | ⟨rfl, rfl⟩ | ⟨rfl, rfl⟩ |
        ⟨rfl, rfl⟩ <;> exact targets_leafDiff fun none => by cases none

end Filter

/-! ## The settings -/

/-- What the page hands on: policies of different rules, and values that are
read as they are written. -/
structure SslInspectionConfig.Submitted (desired : SslInspectionConfig) :
    Prop where
  port : desired.interceptPort ≠ 0
  rules : (desired.policies.map SslPolicy.rule).Nodup
  rulesets : ∀ policy ∈ desired.policies,
    trimmed policy.ruleset = some policy.ruleset
  filter : ∀ filter ∈ desired.contentFilter, filter.Plain

/-- The same settings; the lists are sets. -/
structure SslInspectionConfig.Shows (shown desired : SslInspectionConfig) :
    Prop where
  enabled : shown.enabled = desired.enabled
  interceptPort : shown.interceptPort = desired.interceptPort
  policies : ∀ policy, policy ∈ shown.policies ↔ policy ∈ desired.policies
  defaultAction : shown.defaultAction = desired.defaultAction
  noInspect : ∀ text, text ∈ shown.noInspect ↔ text ∈ desired.noInspect
  defaultExclusions : shown.defaultExclusions = desired.defaultExclusions
  upstreamInvalid : shown.upstreamInvalid = desired.upstreamInvalid
  contentFilter : shown.contentFilter = desired.contentFilter
  caDownloadInterfaces : ∀ text,
    text ∈ shown.caDownloadInterfaces ↔ text ∈ desired.caDownloadInterfaces

abbrev SslInspectionConfig.commands (root : Cfg)
    (desired : SslInspectionConfig) : List VyosCommand :=
  diffSslInspection (fetchSslInspection root) desired

/-- The settings are put in place, and no other service changes. -/
structure SslInspectionConfig.Saved (kinds : Kinds String) (root : Cfg)
    (desired : SslInspectionConfig) : Prop where
  shows : (fetchSslInspection
    (executeAll kinds (desired.commands root) root)).Shows desired
  elsewhere : ∀ probe, Diverges sslNode probe →
    subtree probe (executeAll kinds (desired.commands root) root) =
      subtree probe root
  targeted : Targeted kinds (desired.commands root) root
  settled : (fetchSslInspection root).Shows desired →
    desired.commands root = []

def SslInspectionConfig.save (live desired : SslInspectionConfig) :
    RecordSave String :=
  { old := none
    base := sslNode
    isNew := false
    fields :=
      [(["enable"], flagDiff (sslNode ++ ["enable"]) live.enabled
          desired.enabled),
        (["intercept-port"], leafDiff (sslNode ++ ["intercept-port"])
          (((some live).map SslInspectionConfig.interceptPort).map toString)
          (some (toString desired.interceptPort))),
        (["default-action"], leafDiff (sslNode ++ ["default-action"])
          (((some live).map SslInspectionConfig.defaultAction).map
            SslPolicyAction.text)
          (some desired.defaultAction.text)),
        (["upstream-invalid"], leafDiff (sslNode ++ ["upstream-invalid"])
          (((some live).map SslInspectionConfig.upstreamInvalid).map
            UpstreamInvalid.text)
          (some desired.upstreamInvalid.text)),
        (["disable-default-exclusions"],
          flagDiff (sslNode ++ ["disable-default-exclusions"])
            (!live.defaultExclusions) (!desired.defaultExclusions)),
        (["policy"], policyDiff live.policies desired.policies),
        (["no-inspect"], multiDiff (sslNode ++ ["no-inspect"]) live.noInspect
          desired.noInspect),
        (["ca-download", "interface"],
          multiDiff (sslNode ++ ["ca-download", "interface"])
            live.caDownloadInterfaces desired.caDownloadInterfaces),
        (["content-filter"],
          contentFilterDiff live.contentFilter desired.contentFilter)] }

theorem diffSslInspection_eq (live desired : SslInspectionConfig) :
    diffSslInspection live desired = (live.save desired).commands := by
  have body : (live.save desired).commands = (live.save desired).body := rfl
  rw [body]
  simp only [diffSslInspection, SslInspectionConfig.save, RecordSave.body,
    List.flatMap_cons, List.flatMap_nil, List.append_nil, List.append_assoc]
  rfl

theorem upstreamInvalid_text_injective :
    Function.Injective UpstreamInvalid.text := by
  intro left right same
  cases left <;> cases right <;>
    first | rfl | simp [UpstreamInvalid.text] at same

theorem asUpstreamInvalid_text (choice : UpstreamInvalid) :
    asUpstreamInvalid (some choice.text) = choice := by
  cases choice <;> simp [asUpstreamInvalid, UpstreamInvalid.text]

theorem trimmed_upstreamInvalid (choice : UpstreamInvalid) :
    trimmed choice.text = some choice.text := by
  cases choice <;> decide

theorem has_nodeAt (path : Path) (key : String) (root : Cfg) :
    has (nodeAt path root) key = (subtree (path ++ [key]) root).isSome := by
  rw [has, ← subtree_singleton, subtree_nodeAt (by simp)]

theorem childList_nodeAt (path : Path) (key : String) (root : Cfg) :
    childList (nodeAt path root) key =
      leafValues (subtree (path ++ [key]) root) := by
  rw [childList_eq, subtree_nodeAt (by simp)]

section Settings

variable {kinds : Kinds String} (schema : ServiceSchema kinds)
include schema

/-- The settings are read at their paths. -/
theorem fetchSslInspection_at {root : Cfg} (conforms : Conforms kinds root) :
    fetchSslInspection root =
      { enabled := (subtree (sslNode ++ ["enable"]) root).isSome
        interceptPort :=
          numberOr 3129 (textAt (sslNode ++ ["intercept-port"]) root)
        policies := fetchSslPolicies root
        defaultAction :=
          asSslAction (textAt (sslNode ++ ["default-action"]) root)
        noInspect := leafValues (subtree (sslNode ++ ["no-inspect"]) root)
        defaultExclusions :=
          !(subtree (sslNode ++ ["disable-default-exclusions"]) root).isSome
        upstreamInvalid :=
          asUpstreamInvalid (textAt (sslNode ++ ["upstream-invalid"]) root)
        contentFilter := (subtree filterNode root).map parseContentFilter
        caDownloadInterfaces := leafValues
          (subtree (sslNode ++ ["ca-download", "interface"]) root) } := by
  have node : childNode (childNode (childNode root "service") "quartzfire")
      "ssl-inspection" = nodeAt sslNode root := by
    rw [childNode_eq_nodeAt root, childNode_nodeAt, childNode_nodeAt]
    rfl
  have filter : childCfg (nodeAt sslNode root) "content-filter" =
      subtree filterNode root := by
    have child : (nodeAt sslNode root).child "content-filter" =
        subtree filterNode root := by
      rw [← subtree_singleton, subtree_nodeAt (by simp)]
      rfl
    rw [childCfg, child]
    cases found : subtree filterNode root with
    | none => rfl
    | some cfg =>
        rw [conforms.node_of_nodePath schema.contentFilter found]
  simp only [fetchSslInspection, node, has_nodeAt, childStr_nodeAt,
    childList_nodeAt, childNode_nodeAt, filter]
  rfl

theorem SslInspectionConfig.proper (live desired : SslInspectionConfig) :
    (live.save desired).Proper kinds where
  nodes := schema.service
  diverge := by
    simp only [SslInspectionConfig.save, List.map_cons, List.map_nil]
    decide
  named := by simp [SslInspectionConfig.save]
  below := by
    intro path commands member
    simp only [SslInspectionConfig.save, List.mem_cons, List.not_mem_nil,
      or_false, Prod.mk.injEq] at member
    rcases member with ⟨rfl, rfl⟩ | ⟨rfl, rfl⟩ | ⟨rfl, rfl⟩ | ⟨rfl, rfl⟩ |
      ⟨rfl, rfl⟩ | ⟨rfl, rfl⟩ | ⟨rfl, rfl⟩ | ⟨rfl, rfl⟩ | ⟨rfl, rfl⟩
    · exact below_flagDiff _ _ _
    · exact below_leafDiff _ _ _
    · exact below_leafDiff _ _ _
    · exact below_leafDiff _ _ _
    · exact below_flagDiff _ _ _
    · rw [policyDiff_eq]
      refine .flatMap fun field member => ?_
      exact (below_sslPolicyFields schema member).shorten
    · exact below_diffLeaf _ _ _
    · exact below_diffLeaf _ _ _
    · exact below_contentFilterDiff _ _
  fresh := nofun
  apart := nofun

/-- Nothing is written where a policy's node would not be a number. -/
theorem SslInspectionConfig.spares_odd {live desired : SslInspectionConfig}
    {key : String} (odd : key ≠ toString (ruleNumber key)) :
    Spares (sslBase ++ [key]) (live.save desired).commands := by
  have proper := SslInspectionConfig.proper schema live desired
  refine .append (.map nofun) (.flatMap fun field member => ?_)
  obtain ⟨path, commands⟩ := field
  have elsewhere : Diverges path ["policy"] →
      Spares (sslBase ++ [key]) commands := by
    refine fun diverges => (proper.below _ _ member).spares fun more => ?_
    rw [List.append_assoc]
    exact (diverges_append_left sslNode).mpr (diverges.append more [key])
  simp only [SslInspectionConfig.save, List.mem_cons, List.not_mem_nil,
    or_false, Prod.mk.injEq] at member
  rcases member with ⟨rfl, rfl⟩ | ⟨rfl, rfl⟩ | ⟨rfl, rfl⟩ | ⟨rfl, rfl⟩ |
    ⟨rfl, rfl⟩ | ⟨rfl, rfl⟩ | ⟨rfl, rfl⟩ | ⟨rfl, rfl⟩ | ⟨rfl, rfl⟩
  · exact elsewhere (by decide)
  · exact elsewhere (by decide)
  · exact elsewhere (by decide)
  · exact elsewhere (by decide)
  · exact elsewhere (by decide)
  · rw [policyDiff_eq]
    refine .flatMap fun field among => ?_
    refine (below_sslPolicyFields schema among).spares fun more => ?_
    obtain ⟨rule, same⟩ : ∃ rule : Nat, field.1 = [toString rule] := by
      rcases List.mem_append.mp among with wanted | gone
      · obtain ⟨policy, _, rfl⟩ := List.mem_map.mp wanted
        exact ⟨policy.rule, rfl⟩
      · obtain ⟨policy, _, rfl⟩ := List.mem_map.mp gone
        exact ⟨policy.rule, rfl⟩
    rw [same, List.append_assoc]
    exact diverges_odd odd rule more
  · exact elsewhere (by decide)
  · exact elsewhere (by decide)
  · exact elsewhere (by decide)

omit schema in
/-- The values of a leaf become the desired ones. -/
theorem yields_multiDiff {path : Path} {start : Option Cfg}
    (field : FieldAt kinds path .multi) (desired : List String) :
    Yields kinds path start
      (fun after => ∀ text, text ∈ leafValues after ↔ text ∈ desired)
      (multiDiff path (leafValues start) desired) := by
  refine ((valueSet_of_field field).exchange _ _).mono fun after held text => ?_
  rw [held, List.mem_filter, List.mem_filter, decide_eq_true_eq,
    decide_eq_true_eq, mem_distinct, mem_distinct]
  tauto

omit schema in
theorem multiDiff_of_same {path : Path} {live desired : List String}
    (same : ∀ text, text ∈ live ↔ text ∈ desired) :
    multiDiff path live desired = [] := by
  refine diffLeaf_of_same fun text => ?_
  rw [mem_distinct, mem_distinct, same]

omit schema in
theorem targets_multiDiff {path : Path} {start : Option Cfg}
    (field : FieldAt kinds path .multi) (desired : List String) :
    Targets kinds path start (multiDiff path (leafValues start) desired) := by
  refine .exchange (valueSet_of_field field) _
    ((nodup_distinct _).filter _) fun text member => ?_
  exact (mem_distinct text _).mp (List.mem_filter.mp member).1

variable {root : Cfg} (conforms : Conforms kinds root)
  (numbered : Numbered sslBase root) {desired : SslInspectionConfig}
include conforms

theorem SslInspectionConfig.targeted (numbered : Numbered sslBase root)
    (unique : (desired.policies.map SslPolicy.rule).Nodup) :
    Targeted kinds (desired.commands root) root := by
  have known := (register_sslPolicies kinds).reads conforms numbered
  have distinct := nodup_sslRules_of_decimal conforms numbered
  have read := fetchSslInspection_at schema conforms
  have field := fun path member =>
    (schema.serviceFields path member).below schema.service
  rw [SslInspectionConfig.commands, diffSslInspection_eq]
  refine (SslInspectionConfig.proper schema _ _).targeted conforms nofun
    fun path commands member => ?_
  simp only [SslInspectionConfig.save, List.mem_cons, List.not_mem_nil,
    or_false, Prod.mk.injEq] at member
  rcases member with ⟨rfl, rfl⟩ | ⟨rfl, rfl⟩ | ⟨rfl, rfl⟩ | ⟨rfl, rfl⟩ |
    ⟨rfl, rfl⟩ | ⟨rfl, rfl⟩ | ⟨rfl, rfl⟩ | ⟨rfl, rfl⟩ | ⟨rfl, rfl⟩
  · rw [read]
    exact targets_flagDiff _
  · exact targets_leafDiff fun none => by cases none
  · exact targets_leafDiff fun none => by cases none
  · exact targets_leafDiff fun none => by cases none
  · rw [read, Bool.not_not]
    exact targets_flagDiff _
  · exact targets_policyDiff schema known distinct unique
  · rw [read]
    exact targets_multiDiff (field (["no-inspect"], .multi) (by simp)) _
  · rw [read]
    exact targets_multiDiff
      (field (["ca-download", "interface"], .multi) (by simp)) _
  · rw [read]
    exact targets_contentFilterDiff schema _

variable (submitted : desired.Submitted)
include numbered submitted

/-- Afterwards the policies are the desired ones. -/
theorem SslInspectionConfig.policies_after {policy : SslPolicy} :
    policy ∈ fetchSslPolicies (executeAll kinds (desired.commands root) root) ↔
      policy ∈ desired.policies := by
  have proper := SslInspectionConfig.proper schema (fetchSslInspection root)
    desired
  have conforms' : Conforms kinds (executeAll kinds (desired.commands root)
      root) := conforms.executeAll
  have after := (register_sslPolicies kinds).reads conforms'
    (numbered.executeAll fun key odd => ?_)
  · have yields := yields_policyDiff schema
      ((register_sslPolicies kinds).reads conforms numbered)
      (nodup_sslRules_of_decimal conforms numbered) submitted.rules
      submitted.rulesets policy.rule
    have policyField : (["policy"], _) ∈
        ((fetchSslInspection root).save desired).fields :=
      .tail _ (.tail _ (.tail _ (.tail _ (.tail _ List.mem_cons_self))))
    have read := proper.field conforms policyField yields
    rw [← diffSslInspection_eq] at read
    have read : (subtree (sslPolicyBase policy.rule) (executeAll kinds
        (desired.commands root) root)).map
          (parseSslPolicy (toString policy.rule)) =
        desired.policies.find? fun other => other.rule = policy.rule := read
    rw [after.mem]
    constructor
    · rintro ⟨there, same⟩
      obtain ⟨cfg, node⟩ := Option.isSome_iff_exists.mp there
      rw [node, Option.map_some, parseSslPolicy_at node, same] at read
      exact List.mem_of_find?_eq_some read.symm
    · intro member
      rw [find?_of_distinct submitted.rules member, Option.map_eq_some_iff]
        at read
      obtain ⟨cfg, node, same⟩ := read
      rw [node, ← parseSslPolicy_at node]
      exact ⟨rfl, same⟩
  · rw [SslInspectionConfig.commands, diffSslInspection_eq]
    exact SslInspectionConfig.spares_odd schema odd

/-- Each setting reads as desired. -/
theorem SslInspectionConfig.shows_after :
    (fetchSslInspection
      (executeAll kinds (desired.commands root) root)).Shows desired := by
  have read := fetchSslInspection_at schema conforms
  have field := fun path member =>
    (schema.serviceFields path member).below schema.service
  have proper := SslInspectionConfig.proper schema (fetchSslInspection root)
    desired
  have policies := @SslInspectionConfig.policies_after _ schema _ conforms
    numbered _ submitted
  have flag : ∀ {key : String} {live wanted : Bool},
      FieldAt kinds (sslNode ++ [key]) .valueless →
      ([key], flagDiff (sslNode ++ [key]) live wanted) ∈
        ((fetchSslInspection root).save desired).fields →
      (subtree (sslNode ++ [key]) root).isSome = live →
        (subtree (sslNode ++ [key]) (executeAll kinds
          ((fetchSslInspection root).save desired).commands root)).isSome =
          wanted := by
    rintro key _ wanted shaped member rfl
    exact proper.field_at conforms member (yields_flagDiff shaped wanted)
  have enable := flag (field (["enable"], .valueless) (by simp))
    List.mem_cons_self (by rw [read])
  have exclusions := flag
    (field (["disable-default-exclusions"], .valueless) (by simp))
    (.tail _ (.tail _ (.tail _ (.tail _ List.mem_cons_self))))
    (by rw [read, Bool.not_not])
  have port := reads_saved proper conforms (numberOr 3129)
    (fun _ _ => toString_injective) (trimmed_toString desired.interceptPort)
    (numberOr_toString submitted.port _)
    (field (["intercept-port"], .single) (by simp))
    (by rintro _ ⟨⟩; rw [read]; rfl) (.tail _ List.mem_cons_self)
  have action := reads_saved proper conforms asSslAction
    sslAction_text_injective (trimmed_sslAction desired.defaultAction)
    (asSslAction_text desired.defaultAction)
    (field (["default-action"], .single) (by simp))
    (by rintro _ ⟨⟩; rw [read]; rfl) (.tail _ (.tail _ List.mem_cons_self))
  have upstream := reads_saved proper conforms asUpstreamInvalid
    upstreamInvalid_text_injective
    (trimmed_upstreamInvalid desired.upstreamInvalid)
    (asUpstreamInvalid_text desired.upstreamInvalid)
    (field (["upstream-invalid"], .single) (by simp))
    (by rintro _ ⟨⟩; rw [read]; rfl)
    (.tail _ (.tail _ (.tail _ List.mem_cons_self)))
  have values : ∀ {path : Path} {live wanted : List String},
      FieldAt kinds (sslNode ++ path) .multi →
      (path, multiDiff (sslNode ++ path) live wanted) ∈
        ((fetchSslInspection root).save desired).fields →
      leafValues (subtree (sslNode ++ path) root) = live → ∀ text,
        text ∈ leafValues (subtree (sslNode ++ path) (executeAll kinds
          ((fetchSslInspection root).save desired).commands root)) ↔
          text ∈ wanted := by
    rintro path _ wanted shaped member rfl
    exact proper.field_at conforms member (yields_multiDiff shaped wanted)
  have noInspect := values (field (["no-inspect"], .multi) (by simp))
    (.tail _ (.tail _ (.tail _ (.tail _ (.tail _ (.tail _
      List.mem_cons_self)))))) (by rw [read])
  have interfaces := values
    (field (["ca-download", "interface"], .multi) (by simp))
    (.tail _ (.tail _ (.tail _ (.tail _ (.tail _ (.tail _ (.tail _
      List.mem_cons_self))))))) (by rw [read])
  have filter : (subtree filterNode (executeAll kinds
      ((fetchSslInspection root).save desired).commands root)).map
        parseContentFilter = desired.contentFilter := by
    have yields := @yields_contentFilterDiff _ schema
      (subtree filterNode root) _ submitted.filter
    have shown : (fetchSslInspection root).contentFilter =
        (subtree filterNode root).map parseContentFilter := by
      rw [read]
    rw [← shown] at yields
    exact proper.field_at conforms (.tail _ (.tail _ (.tail _ (.tail _ (.tail _
      (.tail _ (.tail _ (.tail _ List.mem_cons_self)))))))) yields
  rw [SslInspectionConfig.commands, diffSslInspection_eq] at policies ⊢
  rw [fetchSslInspection_at schema conforms.executeAll]
  exact
    { enabled := enable
      interceptPort := port
      policies := fun _ => policies
      defaultAction := action
      noInspect := noInspect
      defaultExclusions := by
        rw [exclusions, Bool.not_not]
      upstreamInvalid := upstream
      contentFilter := filter
      caDownloadInterfaces := interfaces }

omit schema submitted in
/-- Settings that are as desired are left alone. -/
theorem SslInspectionConfig.settled
    (shows : (fetchSslInspection root).Shows desired) :
    desired.commands root = [] := by
  have distinct := nodup_sslRules_of_decimal conforms numbered
  have policies : policyDiff (fetchSslInspection root).policies
      desired.policies = [] :=
    policyDiff_of_same distinct shows.policies
  have filter : contentFilterDiff (fetchSslInspection root).contentFilter
      desired.contentFilter = [] := by
    rw [shows.contentFilter]
    exact contentFilterDiff_self _
  rw [SslInspectionConfig.commands, diffSslInspection, policies, filter,
    multiDiff_of_same shows.noInspect,
    multiDiff_of_same shows.caDownloadInterfaces, shows.enabled,
    shows.interceptPort, shows.defaultAction, shows.upstreamInvalid,
    shows.defaultExclusions]
  simp only [leafDiff_self, flagDiff_self, List.append_nil]

theorem SslInspectionConfig.saved : desired.Saved kinds root where
  shows := SslInspectionConfig.shows_after schema conforms numbered submitted
  elsewhere := by
    intro probe apart
    rw [SslInspectionConfig.commands, diffSslInspection_eq]
    exact ((SslInspectionConfig.proper schema _ _).elsewhere apart
      nofun).subtree_eq root
  targeted := SslInspectionConfig.targeted schema conforms numbered
    submitted.rules
  settled := SslInspectionConfig.settled conforms numbered

end Settings

end QuartzFire.Firewall
