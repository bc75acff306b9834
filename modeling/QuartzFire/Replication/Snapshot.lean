import Mathlib.Data.List.Nodup
import QuartzFire.Replication.Exactness
import QuartzFire.Replication.Geolocation

/-!
# From the saved matches

A commit saves the matches and not the hooks.  Resolved from what was saved, a
policy on a zone rule falls back to the hook of routed traffic, whichever the
zones of its pair are.
-/

namespace QuartzFire.Geolocation

open Replication

variable {conf : ConfigRead} {model : Model}

/-! ## Entries by key -/

section Entries

variable {Item Value : Type} {key : Item → Nat} {value : Item → Option Value}
  {items : List Item} {item : Item}

theorem lookup_of_unique {entries : List (Nat × Value)} {name : Nat}
    {found : Value} (member : (name, found) ∈ entries)
    (unique : ∀ other, (name, other) ∈ entries → other = found) :
    entries.lookup name = some found := by
  induction entries with
  | nil => cases member
  | cons entry rest ih =>
      rw [List.lookup_cons]
      by_cases same : name = entry.1
      · have first : (name, entry.2) ∈ entry :: rest := by simp [same]
        simp [same, unique entry.2 first]
      · have later : (name, found) ∈ rest := by
          refine (List.mem_cons.mp member).resolve_left fun equal => ?_
          exact same (congrArg Prod.fst equal)
        rw [beq_false_of_ne same]
        exact ih later fun other there => unique other (by simp [there])

/-- Each item is entered under its key, if it has a value. -/
theorem lookup_entered (distinct : (items.map key).Nodup)
    (member : item ∈ items) :
    ((items.filterMap fun item =>
      (value item).map (Prod.mk (key item))).reverse).lookup (key item) =
      value item := by
  have entered : ∀ found, (key item, found) ∈ (items.filterMap fun item =>
      (value item).map (Prod.mk (key item))).reverse ↔
        value item = some found := by
    intro found
    simp only [List.mem_reverse, List.mem_filterMap, Option.map_eq_some_iff,
      Prod.mk.injEq]
    constructor
    · rintro ⟨other, listed, _, present, same, rfl⟩
      rwa [← List.inj_on_of_nodup_map distinct listed member same]
    · intro present
      exact ⟨item, member, found, present, rfl, rfl⟩
  cases present : value item with
  | some found =>
      refine lookup_of_unique ((entered found).mpr present) fun other there => ?_
      exact Option.some.inj (((entered other).mp there).symm.trans present)
  | none =>
      rw [List.lookup_eq_none_iff]
      intro entry there
      rw [bne_iff_ne]
      intro same
      have found := (entered entry.2).mp (by rwa [same])
      rw [present] at found
      cases found

theorem lookup_saved (entries : List (Nat × Value)) (name : Nat) :
    (entries.map fun entry => (toString entry.1, entry.2)).lookup
      (toString name) = entries.lookup name := by
  induction entries with
  | nil => rfl
  | cons entry rest ih =>
      rw [List.map_cons, List.lookup_cons, List.lookup_cons, ih]
      by_cases same : name = entry.1
      · simp [same]
      · rw [beq_false_of_ne same,
          beq_false_of_ne fun equal => same (toString_injective equal)]

end Entries

/-! ## Validated models -/

/-- What validation leaves of the policies for a resolution to rely on. -/
theorem policies_of_valid {before : List Nat} {policies : List Policy}
    (valid : policiesProblems model before policies = []) :
    (policies.map Policy.id).Nodup ∧
      ∀ policy ∈ policies, policy.id ∉ before ∧ policy.ruleset.isSome := by
  induction policies generalizing before with
  | nil => simp
  | cons policy rest ih =>
      rw [policiesProblems, List.append_eq_nil_iff] at valid
      obtain ⟨first, later⟩ := valid
      obtain ⟨distinct, others⟩ := ih later
      have fresh : policy.id ∉ before := by
        intro seen
        simp [policyProblems, seen] at first
      have targeted : policy.ruleset.isSome = true := by
        cases named : policy.ruleset with
        | some ruleset => rfl
        | none => simp [policyProblems, named] at first
      refine ⟨List.nodup_cons.mpr ⟨?_, distinct⟩, ?_⟩
      · intro member
        obtain ⟨other, listed, same⟩ := List.mem_map.mp member
        exact (others other listed).1 (by simp [same])
      · intro other member
        rcases List.mem_cons.mp member with rfl | listed
        · exact ⟨fresh, targeted⟩
        · obtain ⟨unseen, target⟩ := others other listed
          exact ⟨fun seen => unseen (by simp [seen]), target⟩

theorem nodup_of_validate {known : Option (List String)}
    (valid : validate model known = []) :
    (model.policies.map Policy.id).Nodup :=
  (policies_of_valid (List.append_eq_nil_iff.mp valid).2).1

/-! ## The two resolutions -/

theorem foldl_add (resolve : Policy → Resolution) (policies : List Policy)
    (start : Resolved) :
    (policies.foldl (fun resolved policy =>
        resolved.add policy.id (resolve policy)) start).found =
      (policies.filterMap fun policy =>
        (some (resolve policy).found).map (Prod.mk policy.id)).reverse ++
        start.found ∧
    (policies.foldl (fun resolved policy =>
        resolved.add policy.id (resolve policy)) start).hooks =
      (policies.filterMap fun policy =>
        (resolve policy).hook.map (Prod.mk policy.id)).reverse ++
        start.hooks := by
  induction policies generalizing start with
  | nil => simp
  | cons policy rest ih =>
      obtain ⟨found, hooks⟩ := ih (start.add policy.id (resolve policy))
      refine ⟨?_, ?_⟩
      · rw [List.foldl_cons, found]
        simp [Resolved.add, Resolution.found]
      · rw [List.foldl_cons, hooks]
        cases hook : (resolve policy).hook <;> simp [Resolved.add, hook]

theorem foldl_addSaved (snapshot : List (String × Option String))
    (policies : List Policy) (start : Resolved) :
    (policies.foldl (addSaved snapshot) start).found =
      (policies.filterMap fun policy =>
        (some (snapshot.lookup (toString policy.id)).join).map
          (Prod.mk policy.id)).reverse ++ start.found ∧
    (policies.foldl (addSaved snapshot) start).hooks = start.hooks := by
  induction policies generalizing start with
  | nil => simp
  | cons policy rest ih =>
      obtain ⟨found, hooks⟩ := ih (addSaved snapshot start policy)
      refine ⟨?_, ?_⟩
      · rw [List.foldl_cons, found]
        simp [addSaved]
      · rw [List.foldl_cons, hooks]
        rfl

/-- Resolved against the live configuration. -/
def live (conf : ConfigRead) (model : Model) : Resolved :=
  resolveMatches model (some conf) none

/-- Resolved from what a commit saved of that. -/
def restored (conf : ConfigRead) (model : Model) : Resolved :=
  let desired := saveDesired model (live conf model)
  resolveMatches desired.model none (some desired.found)

section Lookups

variable {policy : Policy} (distinct : (model.policies.map Policy.id).Nodup)
  (member : policy ∈ model.policies)

include distinct member

theorem live_found : (live conf model).found.lookup policy.id =
    some (resolvePolicy conf policy).found := by
  have found := (foldl_add (resolvePolicy conf) model.policies ⟨[], [], []⟩).1
  rw [List.append_nil] at found
  rw [live, resolveMatches, found]
  exact lookup_entered distinct member

theorem live_hook : (live conf model).hooks.lookup policy.id =
    (resolvePolicy conf policy).hook := by
  have hooks := (foldl_add (resolvePolicy conf) model.policies ⟨[], [], []⟩).2
  rw [List.append_nil] at hooks
  rw [live, resolveMatches, hooks]
  exact lookup_entered distinct member

theorem restored_found : (restored conf model).found.lookup policy.id =
    some (resolvePolicy conf policy).found := by
  have found := (foldl_addSaved (saveDesired model (live conf model)).found
    model.policies ⟨[], [], []⟩).1
  rw [List.append_nil] at found
  rw [restored, resolveMatches]
  simp only [saveDesired] at found ⊢
  rw [found, lookup_entered distinct member, lookup_saved,
    live_found distinct member]
  rfl

omit distinct member in
theorem restored_hook : (restored conf model).hooks = [] :=
  (foldl_addSaved (saveDesired model (live conf model)).found model.policies
    ⟨[], [], []⟩).2

end Lookups

theorem resolvePolicy_hook {policy : Policy} {ruleset : String}
    (targets : policy.ruleset = some ruleset) :
    (resolvePolicy conf policy).hook =
      if (zoneRuleset ruleset).isSome ∧
          (zoneRuleset ruleset).bind (readZonePair conf) = none then none
      else some (policyHook ruleset
        ((zoneRuleset ruleset).bind (readZonePair conf))) := by
  cases zone : zoneRuleset ruleset with
  | none =>
      simp only [resolvePolicy, targets, Option.getD_some, zone,
        Option.bind_none]
      cases readRuleCfg conf ruleset policy.rule with
      | none => rfl
      | some cfg => dsimp only; split <;> simp
  | some name =>
      simp only [resolvePolicy, targets, Option.getD_some, zone,
        Option.bind_some]
      cases readZonePair conf name with
      | none => simp
      | some pair =>
          cases readRuleCfg conf ruleset policy.rule with
          | none => simp
          | some cfg => dsimp only; split <;> simp

/-! ## The same enforcement -/

structure SameEnforcement (model : Model) (saved live : Resolved) : Prop where
  hook : ∀ policy ∈ model.policies, ∀ ruleset ∈ policy.ruleset,
    hookOf saved.hooks policy ruleset = hookOf live.hooks policy ruleset
  found : ∀ policy ∈ model.policies,
    saved.found.lookup policy.id = live.found.lookup policy.id
  rules : hookRules model saved.found saved.hooks =
    hookRules model live.found live.hooks

/-- No policy is on a rule of a pair with the local zone. -/
def Routed (conf : ConfigRead) (model : Model) : Prop :=
  ∀ policy ∈ model.policies, ∀ ruleset ∈ policy.ruleset,
    ∀ name ∈ zoneRuleset ruleset, ∀ pair ∈ readZonePair conf name,
      pair.srcLocal = false ∧ pair.dstLocal = false

theorem hookChain_of_zone {ruleset name : String}
    (zone : zoneRuleset ruleset = some name) :
    hookChain ruleset = "geo_forward" := by
  have unnamed : zoneRuleset "input" = none ∧ zoneRuleset "output" = none := by
    decide
  have input : ruleset ≠ "input" := by
    rintro rfl
    rw [unnamed.1] at zone
    cases zone
  have output : ruleset ≠ "output" := by
    rintro rfl
    rw [unnamed.2] at zone
    cases zone
  rw [hookChain, if_neg input, if_neg output]

theorem policyHook_eq_forward {ruleset : String} {pair : ZonePairCfg} :
    policyHook ruleset (some pair) = "geo_forward" ↔
      pair.srcLocal = false ∧ pair.dstLocal = false := by
  cases first : pair.srcLocal <;> cases second : pair.dstLocal <;>
    simp [policyHook, first, second]

/-- The hook is kept where it is the one that the ruleset's name gives. -/
theorem hookOf_eq_iff {policy : Policy} {ruleset : String}
    (distinct : (model.policies.map Policy.id).Nodup)
    (member : policy ∈ model.policies)
    (targets : policy.ruleset = some ruleset) :
    hookOf (restored conf model).hooks policy ruleset =
        hookOf (live conf model).hooks policy ruleset ↔
      ∀ name ∈ zoneRuleset ruleset, ∀ pair ∈ readZonePair conf name,
        pair.srcLocal = false ∧ pair.dstLocal = false := by
  simp only [hookOf, restored_hook, live_hook distinct member,
    resolvePolicy_hook targets, List.lookup_nil, Option.getD_none]
  cases zone : zoneRuleset ruleset with
  | none => simp [policyHook]
  | some name =>
      cases bound : readZonePair conf name with
      | none => simp [bound]
      | some pair =>
          simp [bound, hookChain_of_zone zone, eq_comm (a := "geo_forward"),
            policyHook_eq_forward]

theorem policyRules_congr {found others : List (Nat × Option String)}
    {hooks kept : List (Nat × String)} {policy : Policy}
    (same_found : found.lookup policy.id = others.lookup policy.id)
    (same_hook : ∀ ruleset ∈ policy.ruleset,
      hookOf hooks policy ruleset = hookOf kept policy ruleset) :
    policyRules model found hooks policy =
      policyRules model others kept policy := by
  unfold policyRules
  rw [same_found]
  split
  · rename_i ruleset _ _ _ targets
    rw [same_hook ruleset targets]
  · rfl

/-- What is restored enforces what was resolved at the commit if and only if
no policy is on a rule of a pair with the local zone. -/
theorem sameEnforcement_iff_routed (conf : ConfigRead) (model : Model)
    (known : Option (List String)) (valid : validate model known = []) :
    SameEnforcement model (restored conf model) (live conf model) ↔
      Routed conf model := by
  have distinct := nodup_of_validate valid
  constructor
  · intro same policy member ruleset targets
    exact (hookOf_eq_iff distinct member targets).mp
      (same.hook policy member ruleset targets)
  · intro routed
    have hook : ∀ policy ∈ model.policies, ∀ ruleset ∈ policy.ruleset,
        hookOf (restored conf model).hooks policy ruleset =
          hookOf (live conf model).hooks policy ruleset :=
      fun policy member ruleset targets =>
        (hookOf_eq_iff distinct member targets).mpr
          (routed policy member ruleset targets)
    have found : ∀ policy ∈ model.policies,
        (restored conf model).found.lookup policy.id =
          (live conf model).found.lookup policy.id :=
      fun policy member => (restored_found distinct member).trans
        (live_found distinct member).symm
    refine ⟨hook, found, List.flatMap_congr fun policy member => ?_⟩
    have listed : policy ∈ model.policies := List.mem_mergeSort.mp member
    exact policyRules_congr (found policy listed) (hook policy listed)

section Examples

def blockAction : Action := ⟨none, some "block-listed", ["XX"], "allow", true⟩

def forwardModel : Model :=
  ⟨[("block", blockAction)],
    [⟨1, some "block", some "forward", 10, "source", true⟩]⟩

theorem twoRules_sameEnforcement :
    SameEnforcement forwardModel (restored twoRules forwardModel)
      (live twoRules forwardModel) := by
  refine (sameEnforcement_iff_routed twoRules forwardModel none
    (by decide)).mpr ?_
  intro policy member ruleset targets name zone
  cases List.mem_singleton.mp member
  cases targets
  have unnamed : zoneRuleset "forward" = none := by decide
  rw [unnamed] at zone
  cases zone

/-- Rule 10 is for traffic from the LAN to the box. -/
def localPair : ConfigRead :=
  .ofTree (.node [("firewall", .node [
    ("zone", .node [
      ("LAN", .node [("member", .node [("interface", .value "eth1")])]),
      ("BOX", .node [
        ("local-zone", .node []),
        ("from", .node [("LAN", .node [
          ("firewall", .node [("name", .value "LAN-TO-BOX")])])])])]),
    ("ipv4", .node [("name", .node [("LAN-TO-BOX", .node [("rule", .node [
      ("10", .node [("protocol", .value "tcp")])])])])])])])

def localModel : Model :=
  ⟨[("block", blockAction)],
    [⟨1, some "block", some "name:LAN-TO-BOX", 10, "source", true⟩]⟩

/-- The rule is put in the input hook at the commit, and in the forward hook
from what was saved. -/
theorem local_zone_hook_lost :
    validate localModel none = [] ∧
      ((live localPair localModel).hooks.lookup 1 = some "geo_input" ∧
        (hookRules localModel (live localPair localModel).found
          (live localPair localModel).hooks).map Prod.fst = ["geo_input"]) ∧
      ((restored localPair localModel).hooks.lookup 1 = none ∧
        (hookRules localModel (restored localPair localModel).found
          (restored localPair localModel).hooks).map Prod.fst =
          ["geo_forward"]) ∧
      ¬ SameEnforcement localModel (restored localPair localModel)
        (live localPair localModel) := by
  have hooks : (live localPair localModel).hooks = [(1, "geo_input")] := by rfl
  have found : (live localPair localModel).found =
      [(1, some "iifname \x7b \"eth1\" \x7d meta l4proto tcp")] := by rfl
  have again : (restored localPair localModel).found =
      [(1, some "iifname \x7b \"eth1\" \x7d meta l4proto tcp")] := by rfl
  have chosen : (hookRules localModel (live localPair localModel).found
      (live localPair localModel).hooks).map Prod.fst = ["geo_input"] := by
    rw [found, hooks, hookRules, localModel, List.mergeSort_singleton]
    rfl
  have fallback : (hookRules localModel (restored localPair localModel).found
      (restored localPair localModel).hooks).map Prod.fst =
      ["geo_forward"] := by
    rw [again, restored_hook, hookRules, localModel,
      List.mergeSort_singleton]
    rfl
  refine ⟨by decide, ⟨by rw [hooks]; rfl, chosen⟩,
    ⟨by rw [restored_hook]; rfl, fallback⟩, fun same => ?_⟩
  have rules := congrArg (List.map Prod.fst) same.rules
  rw [chosen, fallback] at rules
  exact absurd rules (by decide)

end Examples

end QuartzFire.Geolocation
