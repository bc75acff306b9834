import QuartzFire.Editing.Rows
import QuartzFire.Firewall.Objects
import QuartzFire.Firewall.RuleServices
import QuartzFire.Firewall.Schema

/-!
# Geolocation policies of one rule

A rule has one geolocation policy for each scope it occupies.  Saving the rule
writes the first live policy of each scope over, makes one with a fresh id where
there is none, and deletes the policies of the zone pairs it no longer spans.
-/

namespace QuartzFire.Firewall

open ConfigTree
open Editing (RowEdit editRows leaf flag textAt)

/-- `validateActionName` -/
def isGeoActionName (name : String) : Bool :=
  match name.toList with
  | [] => false
  | first :: rest => first.isAlpha && rest.length ≤ 31 &&
      rest.all fun char => char.isAlphanum || char = '_'

/-- The scopes a rule occupies, under the names the configuration has for
them. -/
structure ScopeSet where
  chains : List RuleChain
  distinct : chains.Nodup
  trims : ∀ chain ∈ chains, trimmed chain.text = some chain.text

/-- The kinds of a policy's leaves. -/
def geoShape : List (Path × Kind) :=
  [(["action"], .single), (["ruleset"], .single), (["rule"], .single),
    (["direction"], .single), (["disable"], .valueless)]

def GeoLeaves (kinds : Kinds String) : Prop :=
  ∀ id, Shaped (kinds.below (geoBase ++ [id])) geoShape

theorem trimmed_geoActionName {name : String}
    (named : isGeoActionName name = true) : trimmed name = some name := by
  have allowed : ∀ char ∈ name.toList, isSpace char = false := by
    rw [isGeoActionName] at named
    split at named
    · cases named
    · rename_i first rest same
      simp only [Bool.and_eq_true, List.all_eq_true] at named
      rw [same]
      intro char member
      apply not_isSpace_of_zoneName
      rcases List.mem_cons.mp member with rfl | inRest
      · simp [Char.isAlphanum, named.1.1]
      · have word := named.2 char inRest
        simp only [Bool.or_eq_true] at word ⊢
        tauto
  have proper : name ≠ "" := by
    rintro rfl
    cases named
  rw [trimmed, trim_of_ends, if_neg proper]
  · exact fun char first => allowed char (List.mem_of_mem_head? first)
  · exact fun char last => allowed char (List.mem_of_mem_getLast? last)

/-! ## The commands of one policy -/

/-- The fields of a policy, below its node. -/
def policyFields (live : Option GeoPolicy) (desired : GeoPolicy) :
    List (Block String) :=
  [⟨[["action"]], leaf ["action"] (live.map GeoPolicy.action)
      (some desired.action)⟩,
    ⟨[["ruleset"]], leaf ["ruleset"] (live.map fun live => live.ruleset.text)
      (some desired.ruleset.text)⟩,
    ⟨[["rule"]], leaf ["rule"] (live.map fun live => toString live.rule)
      (some (toString desired.rule))⟩,
    ⟨[["direction"]], leaf ["direction"]
      (live.map fun live => live.direction.text)
      (some desired.direction.text)⟩,
    ⟨[["disable"]], flag ["disable"] (!(live.map GeoPolicy.enabled).getD true)
      (!desired.enabled)⟩]

/-- The desired policy, without the id of the one being edited. -/
def GeoPolicyUpdate.desired (update : GeoPolicyUpdate) : GeoPolicy :=
  ⟨update.id, update.action, update.ruleset, update.rule, update.direction,
    update.enabled⟩

def geoNode : Path := ["service", "geolocation"]

theorem leaf_of_trimmed {path : Path} {live : Option String} {text : String}
    (plain : trimmed text = some text) :
    leaf path live (some text) =
      if some text = live then [] else [.set (path ++ [text])] := by
  have wants : (some text).bind trimmed = some text := by
    rw [Option.bind_some, plain]
  by_cases same : some text = live
  · rw [if_pos same, Editing.leaf_same (wants.trans same)]
  · rw [if_neg same, Editing.leaf_set wants fun equal => same equal.symm]

theorem trimmed_direction (direction : GeoDirection) :
    trimmed direction.text = some direction.text := by
  cases direction <;> decide

/-- A policy that keeps its id is written field by field. -/
theorem diffGeoPolicy_eq (existing : List GeoPolicy) {update : GeoPolicyUpdate}
    (stays : ∀ id ∈ update.originalId, id = update.id)
    (action : trimmed update.action = some update.action)
    (ruleset : trimmed update.ruleset.text = some update.ruleset.text) :
    diffGeoPolicy existing update =
      (laid (policyFields
        (existing.find? fun policy => policy.id = update.id)
        update.desired)).map (Command.under (policyBase update.id)) := by
  have unmoved : (update.originalId.filter fun id => id ≠ update.id) = none := by
    rw [Option.filter_eq_none_iff]
    intro id original
    simpa using stays id original
  have text : ∀ (sub : String) (live : Option String) (wanted : String),
      trimmed wanted = some wanted →
      (leaf [sub] live (some wanted)).map (Command.under (policyBase update.id)) =
        if some wanted = live then []
        else [.set (policyBase update.id ++ [sub, wanted])] := by
    intro sub live wanted plain
    rw [leaf_of_trimmed plain]
    split <;> rfl
  have disable : (flag ["disable"] (!(((existing.find? fun policy =>
        policy.id = update.id).map GeoPolicy.enabled).getD true))
          (!update.enabled)).map (Command.under (policyBase update.id)) =
      if update.enabled = ((existing.find? fun policy =>
        policy.id = update.id).map GeoPolicy.enabled).getD true then []
      else if update.enabled then
        [.delete (policyBase update.id ++ ["disable"])]
      else [.set (policyBase update.id ++ ["disable"])] := by
    generalize ((existing.find? fun policy =>
      policy.id = update.id).map GeoPolicy.enabled).getD true = live
    cases update.enabled <;> cases live <;> rfl
  simp only [laid, policyFields, List.flatMap_cons, List.flatMap_nil,
    List.map_append, List.append_nil, GeoPolicyUpdate.desired,
    text _ _ _ action, text _ _ _ ruleset, text _ _ _ (trimmed_toString _),
    text _ _ _ (trimmed_direction _), disable]
  simp only [diffGeoPolicy, unmoved, Option.toList_none, List.map_nil,
    List.nil_append, Option.isSome_none, Bool.false_eq_true, if_false,
    List.append_assoc]

/-! ## The commands of all policies -/

/-- The policies wanted for the scopes, with the ids they get. -/
def attachments (existing : List GeoPolicy) (rule : Nat) (choice : GeoChoice) :
    List RuleChain → List Nat → List GeoPolicy
  | [], _ => []
  | chain :: chains, taken =>
      let prev := existing.find? fun policy => policy.ruleset = chain
      let fresh := taken.foldl max 0 + 10
      ⟨(prev.map GeoPolicy.id).getD fresh, choice.action, chain, rule,
          choice.direction, true⟩ ::
        attachments existing rule choice chains
          (if prev.isSome then taken else taken ++ [fresh])

/-- The policies a save wants for a rule. -/
def wantedPolicies (live : List GeoPolicy) (rule : Nat)
    (chains : List RuleChain) : Option GeoChoice → List GeoPolicy
  | none => []
  | some choice => attachments (policiesForRule live rule chains) rule choice
      chains (live.map GeoPolicy.id)

/-- The policies a save deletes. -/
def droppedPolicies (live : List GeoPolicy) (rule : Nat)
    (chains : List RuleChain) (choice : Option GeoChoice) : List GeoPolicy :=
  (policiesForRule live rule chains).filter fun policy =>
    choice.isNone || policy.ruleset ∉ chains

/-- The edit of a policy's node. -/
def policyEdit (live : List GeoPolicy) (desired : GeoPolicy) : RowEdit :=
  ⟨toString desired.id, laid (policyFields
    (live.find? fun policy => policy.id = desired.id) desired)⟩

def policyKey (policy : GeoPolicy) : String := toString policy.id

theorem attachScopes_eq (live existing : List GeoPolicy) (rule : Nat)
    {choice : GeoChoice} (action : trimmed choice.action = some choice.action)
    {chains : List RuleChain}
    (trims : ∀ chain ∈ chains, trimmed chain.text = some chain.text)
    (taken : List Nat) :
    attachScopes live existing rule choice chains taken =
      (attachments existing rule choice chains taken).flatMap fun desired =>
        (policyEdit live desired).commands.map
          (Command.under (policyBase desired.id)) := by
  induction chains generalizing taken with
  | nil => rfl
  | cons chain chains ih =>
      rw [attachScopes, attachments, List.flatMap_cons]
      dsimp only
      rw [ih fun other member => trims other (List.mem_cons_of_mem _ member)]
      generalize existing.find? (fun policy => policy.ruleset = chain) = prev
      have stays : ∀ id ∈ prev.map GeoPolicy.id,
          id = (prev.map GeoPolicy.id).getD (taken.foldl max 0 + 10) := by
        intro id original
        rw [Option.mem_def.mp original, Option.getD_some]
      have proper := trims chain List.mem_cons_self
      have written := @diffGeoPolicy_eq live
        { id := (prev.map GeoPolicy.id).getD (taken.foldl max 0 + 10)
          action := choice.action
          ruleset := chain
          rule := rule
          direction := choice.direction
          enabled := true
          originalId := prev.map GeoPolicy.id } stays action proper
      rw [written]
      rfl

/-- A save edits the rows below the service's node. -/
theorem diffGeoPoliciesForRule_eq (live : List GeoPolicy) (rule : Nat)
    (scopes : ScopeSet) {choice : Option GeoChoice}
    (named : ∀ wanted ∈ choice, isGeoActionName wanted.action = true) :
    diffGeoPoliciesForRule live rule scopes.chains choice =
      (editRows "policy"
        ((wantedPolicies live rule scopes.chains choice).map (policyEdit live))
        ((droppedPolicies live rule scopes.chains choice).map
          policyKey)).map (Command.under geoNode) := by
  have below : ∀ policy : GeoPolicy,
      (Command.delete ["policy", policyKey policy]).under geoNode =
        .delete (policyBase policy.id) := fun _ => rfl
  cases choice with
  | none =>
      simp only [diffGeoPoliciesForRule, wantedPolicies, droppedPolicies,
        editRows, List.map_nil, List.flatMap_nil, List.nil_append,
        Option.isNone_none, Bool.true_or, List.filter_true, List.map_map,
        Function.comp_def, below]
  | some wanted =>
      have action := trimmed_geoActionName (named wanted rfl)
      have under : ∀ (desired : GeoPolicy) (command : VyosCommand),
          (command.under ["policy", (policyEdit live desired).key]).under
            geoNode = command.under (policyBase desired.id) :=
        fun desired command => (Command.under_append geoNode _ command).symm
      rw [diffGeoPoliciesForRule, attachScopes_eq live _ rule action scopes.trims]
      simp only [wantedPolicies, droppedPolicies, editRows, List.map_append,
        List.map_flatMap, List.flatMap_map, List.map_map, Function.comp_def,
        below, under, Option.isNone_some, Bool.false_or]

/-! ## A policy that is written over -/

theorem asRuleset_text (chain : RuleChain) :
    asRuleset (some chain.text) = chain := by
  cases chain with
  | base chain => cases chain <;> decide
  | name ruleset =>
      have chars : (RuleChain.name ruleset).text.toList =
          "name:".toList ++ ruleset.toList := String.toList_append ..
      have notInput : (RuleChain.name ruleset).text ≠ "input" := by
        intro same
        rw [same] at chars
        cases chars
      have notOutput : (RuleChain.name ruleset).text ≠ "output" := by
        intro same
        rw [same] at chars
        cases chars
      have starts : startsWith (RuleChain.name ruleset).text "name:" = true := by
        rw [startsWith, chars, List.isPrefixOf_iff_prefix]
        exact List.prefix_append _ _
      have dropped : (RuleChain.name ruleset).text.toList.drop 5 =
          ruleset.toList := by
        rw [chars]
        rfl
      simp only [asRuleset]
      rw [if_neg notInput, if_neg notOutput, if_pos starts, dropped,
        String.ofList_toList]

theorem asDirection_text (direction : GeoDirection) :
    asDirection (some direction.text) = direction := by
  cases direction <;> decide

theorem separate_policyFields (live : Option GeoPolicy) (desired : GeoPolicy) :
    Separate (policyFields live desired) where
  diverge := by
    simp only [policyFields, List.map_cons, List.map_nil]
    decide
  each := by
    simp only [policyFields, List.forall_mem_cons, List.not_mem_nil,
      false_imp_iff, implies_true, and_true]
    exact ⟨.ofBelow (Editing.leaf_local _ _ _), .ofBelow (Editing.leaf_local _ _ _),
      .ofBelow (Editing.leaf_local _ _ _), .ofBelow (Editing.leaf_local _ _ _),
      .ofBelow (Editing.flag_local _ _ _)⟩

/-- A text of a policy reads as wanted if it does where it is not written. -/
theorem policyText {Value : Type} (reads : Option String → Value)
    {kinds : Kinds String} {raw : Cfg} (conforms : Conforms kinds raw)
    {blocks : List (Block String)} (separate : Separate blocks)
    {key text : String} {live : Option String}
    (field : FieldAt kinds [key] .single) (plain : trimmed text = some text)
    (member : ⟨[[key]], leaf [key] live (some text)⟩ ∈ blocks)
    (agrees : live = some text →
      reads (childStr raw key) = reads (some text)) :
    reads (childStr (executeAll kinds (laid blocks) raw) key) =
      reads (some text) := by
  have wrote := (Editing.leaf_writes field).at_leaf [key] separate member
    (List.prefix_refl _) conforms
  have wants : (some text).bind trimmed = some text := by
    rw [Option.bind_some, plain]
  simp only [wants] at wrote
  rw [Editing.childStr_eq] at agrees ⊢
  split at wrote
  · rename_i same
    rw [wrote]
    exact agrees same.symm
  · rw [wrote.1]

/-- A policy as it is wanted, with texts that are read as they are written. -/
structure Writable (policy : GeoPolicy) : Prop where
  action : trimmed policy.action = some policy.action
  ruleset : trimmed policy.ruleset.text = some policy.ruleset.text

theorem parse_written {kinds : Kinds String} {raw : Cfg}
    (conforms : Conforms kinds raw) (shaped : Shaped kinds geoShape)
    {live : Option GeoPolicy} {desired : GeoPolicy} {key : String}
    (writable : Writable desired) (keyed : ruleNumber key = desired.id)
    (absent : live = none → raw = .node [])
    (known : ∀ policy ∈ live, parseGeoPolicy key raw = policy ∧
      policy.ruleset = desired.ruleset ∧ policy.rule = desired.rule) :
    parseGeoPolicy key
        (executeAll kinds (laid (policyFields live desired)) raw) =
      desired := by
  have separate := separate_policyFields live desired
  obtain ⟨action, ruleset, rule, direction, disable, -⟩ :
      FieldAt kinds ["action"] .single ∧ FieldAt kinds ["ruleset"] .single ∧
      FieldAt kinds ["rule"] .single ∧ FieldAt kinds ["direction"] .single ∧
      FieldAt kinds ["disable"] .valueless ∧ True := by
    simpa [Shaped, geoShape] using shaped
  have wasKnown : ∀ {Value : Type} {field : GeoPolicy → Value} {value : Value},
      live.map field = some value → ∃ policy, live = some policy ∧
        parseGeoPolicy key raw = policy ∧ field policy = value := by
    intro Value field value same
    obtain ⟨policy, there, equal⟩ := Option.map_eq_some_iff.mp same
    exact ⟨policy, there, (known policy there).1, equal⟩
  have readsAction := policyText (fun text => text.getD "") conforms separate
    action writable.action List.mem_cons_self fun same => by
      obtain ⟨policy, _, rfl, same⟩ := wasKnown same
      exact same
  have readsRuleset := policyText asRuleset conforms separate ruleset
    writable.ruleset (List.mem_cons_of_mem _ List.mem_cons_self) fun same => by
      obtain ⟨policy, rfl, rfl, _⟩ := wasKnown same
      rw [asRuleset_text]
      exact (known _ rfl).2.1
  have readsRule := policyText leafNumber conforms separate rule
    (trimmed_toString desired.rule)
    (List.mem_cons_of_mem _ (List.mem_cons_of_mem _ List.mem_cons_self))
    fun same => by
      obtain ⟨policy, rfl, rfl, _⟩ := wasKnown same
      exact ((known _ rfl).2.2).trans (ruleNumber_toString _).symm
  have readsDirection := policyText asDirection conforms separate direction
    (trimmed_direction desired.direction)
    (List.mem_cons_of_mem _ (List.mem_cons_of_mem _ (List.mem_cons_of_mem _
      List.mem_cons_self))) fun same => by
      obtain ⟨policy, rfl, rfl, same⟩ := wasKnown same
      rw [← same]
      exact (asDirection_text _).symm
  have shown : (!(live.map GeoPolicy.enabled).getD true) =
      (subtree ["disable"] raw).isSome := by
    cases live with
    | none =>
        rw [absent rfl]
        rfl
    | some policy =>
        obtain ⟨rfl, _⟩ := known policy rfl
        simp [parseGeoPolicy, Editing.has_eq]
  have raised := (Editing.flag_yields (.inl disable) shown).at_leaf ["disable"]
    separate (List.mem_cons_of_mem _ (List.mem_cons_of_mem _
      (List.mem_cons_of_mem _ (List.mem_cons_of_mem _ List.mem_cons_self))))
    (List.prefix_refl _) conforms
  rw [← Editing.has_eq] at raised
  rw [asRuleset_text] at readsRuleset
  rw [asDirection_text] at readsDirection
  rw [parseGeoPolicy, readsAction, readsRuleset, readsRule, readsDirection,
    raised, keyed, leafNumber, Option.map_some, Option.getD_some,
    Option.getD_some, ruleNumber_toString, Bool.not_not]

/-! ## The ids -/

theorem le_foldl_max (ids : List Nat) (start : Nat) :
    start ≤ ids.foldl max start ∧ ∀ id ∈ ids, id ≤ ids.foldl max start := by
  induction ids generalizing start with
  | nil => exact ⟨Nat.le_refl start, by simp⟩
  | cons id ids ih =>
      obtain ⟨more, all⟩ := ih (max start id)
      rw [List.foldl_cons]
      refine ⟨(Nat.le_max_left _ _).trans more, ?_⟩
      intro other among
      rcases List.mem_cons.mp among with rfl | later
      · exact (Nat.le_max_right _ _).trans more
      · exact all other later

/-- A policy wanted for a scope: it has the id of the first there, or one above
all that are taken. -/
structure Attachment (existing : List GeoPolicy) (rule : Nat)
    (choice : GeoChoice) (taken : List Nat) (policy : GeoPolicy) : Prop where
  rule : policy.rule = rule
  action : policy.action = choice.action
  direction : policy.direction = choice.direction
  enabled : policy.enabled = true
  id : (∃ prev, (existing.find? fun other => other.ruleset = policy.ruleset) =
      some prev ∧ policy.id = prev.id) ∨
    ((existing.find? fun other => other.ruleset = policy.ruleset) = none ∧
      ∀ id ∈ taken, id < policy.id)

section Attachments

variable {existing : List GeoPolicy} {rule : Nat} {choice : GeoChoice}
  {chains : List RuleChain} {taken : List Nat}

theorem rulesets_attachments :
    (attachments existing rule choice chains taken).map GeoPolicy.ruleset =
      chains := by
  induction chains generalizing taken with
  | nil => rfl
  | cons chain chains ih =>
      rw [attachments, List.map_cons]
      dsimp only
      rw [ih]

theorem attachment_of_mem {policy : GeoPolicy}
    (member : policy ∈ attachments existing rule choice chains taken) :
    Attachment existing rule choice taken policy := by
  induction chains generalizing taken with
  | nil => cases member
  | cons chain chains ih =>
      rcases List.mem_cons.mp member with rfl | later
      · refine ⟨rfl, rfl, rfl, rfl, ?_⟩
        dsimp only
        cases existing.find? fun other => other.ruleset = chain with
        | some prev => exact .inl ⟨prev, rfl, rfl⟩
        | none =>
            refine .inr ⟨rfl, fun id among => ?_⟩
            have least := (le_foldl_max taken 0).2 id among
            rw [Option.map_none, Option.getD_none]
            omega
      · obtain ⟨rule', action, direction, enabled, id⟩ := ih later
        refine ⟨rule', action, direction, enabled, id.imp_right ?_⟩
        rintro ⟨absent, above⟩
        refine ⟨absent, fun id among => above id ?_⟩
        split
        · exact among
        · exact List.mem_append_left _ among

/-- No two of the policies wanted have one id. -/
theorem nodup_attachments (distinct : (existing.map GeoPolicy.id).Nodup)
    (among : ∀ policy ∈ existing, policy.id ∈ taken)
    (different : chains.Nodup) :
    ((attachments existing rule choice chains taken).map
      GeoPolicy.id).Nodup := by
  induction chains generalizing taken with
  | nil => exact List.nodup_nil
  | cons chain chains ih =>
      rw [List.nodup_cons] at different
      rw [attachments, List.map_cons, List.nodup_cons]
      dsimp only
      refine ⟨?_, ih (fun policy member => ?_) different.2⟩
      · intro again
        obtain ⟨policy, member, same⟩ := List.mem_map.mp again
        have elsewhere : policy.ruleset ≠ chain := by
          rintro rfl
          refine different.1 ?_
          rw [← @rulesets_attachments existing rule choice chains]
          exact List.mem_map_of_mem member
        have there : ∀ {scope : RuleChain} {prev : GeoPolicy},
            existing.find? (fun other => other.ruleset = scope) = some prev →
              prev ∈ existing ∧ prev.ruleset = scope := by
          intro scope prev found
          exact ⟨List.mem_of_find?_eq_some found,
            by simpa using List.find?_some found⟩
        have attached := (attachment_of_mem member).id
        cases found : existing.find? fun other => other.ruleset = chain with
        | some prev =>
            rw [found] at same attached
            have same : policy.id = prev.id := same
            rcases attached with ⟨other, found', id⟩ | ⟨_, above⟩
            · have equal := eq_of_key distinct (there found).1 (there found').1
                (same.symm.trans id)
              subst equal
              exact elsewhere ((there found').2.symm.trans (there found).2)
            · have least := above prev.id (among prev (there found).1)
              omega
        | none =>
            rw [found] at same attached
            have same : policy.id = taken.foldl max 0 + 10 := same
            rcases attached with ⟨other, found', id⟩ | ⟨_, above⟩
            · have least := (le_foldl_max taken 0).2 other.id
                (among other (there found').1)
              omega
            · have least := above (taken.foldl max 0 + 10)
                (List.mem_append_right _ (List.mem_singleton_self _))
              omega
      · split
        · exact among policy member
        · exact List.mem_append_left _ (among policy member)

theorem wanted_cases {live : List GeoPolicy} {choice : Option GeoChoice}
    {policy : GeoPolicy}
    (member : policy ∈ wantedPolicies live rule chains choice) :
    ∃ selected, choice = some selected ∧ policy.ruleset ∈ chains ∧
      Attachment (policiesForRule live rule chains) rule selected
        (live.map GeoPolicy.id) policy := by
  cases choice with
  | none => cases member
  | some selected =>
      refine ⟨selected, rfl, ?_, attachment_of_mem member⟩
      rw [← @rulesets_attachments (policiesForRule live rule chains) rule
        selected chains]
      exact List.mem_map_of_mem member

theorem known_of_find {live : List GeoPolicy} {id : Nat} {known : GeoPolicy}
    (found : live.find? (fun other => other.id = id) = some known) :
    known ∈ live ∧ known.id = id :=
  ⟨List.mem_of_find?_eq_some found, by simpa using List.find?_some found⟩

end Attachments

/-! ## What a save leaves -/

/-- The configuration after a rule's policies are saved. -/
def geoSaved (schema : Schema) (root : Cfg) (rule : Nat) (scopes : ScopeSet)
    (choice : Option GeoChoice) : Cfg :=
  executeAll schema.kinds (diffGeoPoliciesForRule (fetchGeolocation root) rule
    scopes.chains choice) root

theorem policy_nodes (schema : Schema) (key : String) :
    NodePath schema.kinds geoNode ∧
      NodePath (schema.kinds.below geoNode) ["policy", key] :=
  NodePath.append.mp (schema.geoNode key)

theorem of_policyKey {policy : GeoPolicy} {policies : List GeoPolicy}
    (key : policyKey policy ∈ policies.map policyKey) :
    ∃ other ∈ policies, policy.id = other.id := by
  obtain ⟨other, member, same⟩ := List.mem_map.mp key
  exact ⟨other, member, (toString_injective same).symm⟩

theorem mem_fetchGeolocation_slice {kinds : Kinds String} {root : Cfg}
    (conforms : Conforms kinds root) {policy : GeoPolicy} :
    policy ∈ fetchGeolocation root ↔ ∃ key cfg,
      subtree ["policy", key] (slice geoNode root) = some cfg ∧
        parseGeoPolicy key cfg = policy := by
  rw [mem_fetchGeolocation conforms]
  refine exists₂_congr fun key cfg => ?_
  rw [subtree_slice (List.cons_ne_nil _ _)]
  rfl

/-- A configuration the device renders, and an action it may have. -/
structure GeoSetup (schema : Schema) (root : Cfg)
    (choice : Option GeoChoice) : Prop where
  rendered : Rendered schema root
  leaves : GeoLeaves schema.kinds
  named : ∀ selected ∈ choice, isGeoActionName selected.action = true

namespace GeoSetup

variable {schema : Schema} {root : Cfg} {rule : Nat} {scopes : ScopeSet}
  {choice : Option GeoChoice} (setup : GeoSetup schema root choice)
include setup

theorem policy_key {key : String} {cfg : Cfg}
    (found : subtree ["policy", key] (slice geoNode root) = some cfg) :
    key = toString (ruleNumber key) := by
  rw [subtree_slice (List.cons_ne_nil _ _)] at found
  exact setup.rendered.policies geoBase List.mem_cons_self key cfg found

theorem policy_node {policy : GeoPolicy}
    (member : policy ∈ fetchGeolocation root) : ∃ cfg,
      subtree ["policy", policyKey policy] (slice geoNode root) = some cfg ∧
        parseGeoPolicy (policyKey policy) cfg = policy := by
  obtain ⟨key, cfg, found, rfl⟩ :=
    (mem_fetchGeolocation_slice setup.rendered.conforms).mp member
  have decimal := setup.policy_key found
  refine ⟨cfg, ?_⟩
  rw [policyKey, parseGeoPolicy, ← decimal]
  exact ⟨found, rfl⟩

/-- What is below the service's node afterwards. -/
theorem slice_saved :
    slice geoNode (geoSaved schema root rule scopes choice) =
      executeAll (schema.kinds.below geoNode)
        (editRows "policy"
          ((wantedPolicies (fetchGeolocation root) rule scopes.chains
            choice).map (policyEdit (fetchGeolocation root)))
          ((droppedPolicies (fetchGeolocation root) rule scopes.chains
            choice).map policyKey)) (slice geoNode root) := by
  rw [geoSaved, diffGeoPoliciesForRule_eq _ _ _ setup.named]
  refine slice_executeAll_under (policy_nodes schema "").1 ?_
    setup.rendered.conforms
  refine Each.append (.flatMap fun edit _ => .map fun command _ => ?_)
    (.map fun key _ => ?_)
  · cases command <;> simp [Command.under]
  · simp

theorem subtree_other {key : String}
    (unwanted : key ∉ (wantedPolicies (fetchGeolocation root) rule
      scopes.chains choice).map policyKey)
    (kept : key ∉ (droppedPolicies (fetchGeolocation root) rule
      scopes.chains choice).map policyKey) :
    subtree ["policy", key]
        (slice geoNode (geoSaved schema root rule scopes choice)) =
      subtree ["policy", key] (slice geoNode root) := by
  rw [setup.slice_saved]
  refine Editing.subtree_editRows_other ?_ kept
  rw [List.map_map]
  exact unwanted

theorem subtree_dropped {key : String}
    (unwanted : key ∉ (wantedPolicies (fetchGeolocation root) rule
      scopes.chains choice).map policyKey)
    (goes : key ∈ (droppedPolicies (fetchGeolocation root) rule
      scopes.chains choice).map policyKey) :
    subtree ["policy", key]
        (slice geoNode (geoSaved schema root rule scopes choice)) = none := by
  rw [setup.slice_saved]
  refine Editing.subtree_editRows_dropped ?_ goes
  rw [List.map_map]
  exact unwanted

theorem nodup_wanted :
    ((wantedPolicies (fetchGeolocation root) rule scopes.chains choice).map
      GeoPolicy.id).Nodup := by
  cases choice with
  | none => exact List.nodup_nil
  | some selected =>
      have distinct := nodup_geoIds setup.rendered
      refine nodup_attachments ?_ ?_ scopes.distinct
      · exact distinct.sublist (List.filter_sublist.map _)
      · intro policy member
        exact List.mem_map_of_mem (List.mem_filter.mp member).1

/-- A dropped policy is not written as well. -/
theorem wanted_not_dropped {policy : GeoPolicy}
    (member : policy ∈ wantedPolicies (fetchGeolocation root) rule
      scopes.chains choice) :
    policyKey policy ∉ (droppedPolicies (fetchGeolocation root) rule
      scopes.chains choice).map policyKey := by
  intro goes
  obtain ⟨dropped, inDropped, same⟩ := List.mem_map.mp goes
  have same : dropped.id = policy.id := toString_injective same
  obtain ⟨inExisting, outside⟩ := List.mem_filter.mp inDropped
  obtain ⟨selected, rfl, inScopes, attached⟩ := wanted_cases member
  have inLive := (List.mem_filter.mp inExisting).1
  rcases attached.id with ⟨prev, found, id⟩ | ⟨_, above⟩
  · have inLive' := (List.mem_filter.mp (List.mem_of_find?_eq_some found)).1
    have equal := eq_of_key (nodup_geoIds setup.rendered) inLive inLive'
      (same.trans id)
    have scope : prev.ruleset = policy.ruleset := by
      simpa using List.find?_some found
    rw [equal, scope] at outside
    simp [inScopes] at outside
  · have least := above dropped.id (List.mem_map_of_mem inLive)
    omega

theorem writable_wanted {policy : GeoPolicy}
    (member : policy ∈ wantedPolicies (fetchGeolocation root) rule
      scopes.chains choice) : Writable policy := by
  obtain ⟨selected, selects, inScopes, attached⟩ := wanted_cases member
  refine ⟨?_, scopes.trims _ inScopes⟩
  rw [attached.action]
  exact trimmed_geoActionName (setup.named selected selects)

/-- A policy written over is of the same scope and rule. -/
theorem written_over {policy known : GeoPolicy}
    (member : policy ∈ wantedPolicies (fetchGeolocation root) rule
      scopes.chains choice) (inLive : known ∈ fetchGeolocation root)
    (same : known.id = policy.id) :
    known.ruleset = policy.ruleset ∧ known.rule = policy.rule := by
  obtain ⟨selected, rfl, inScopes, attached⟩ := wanted_cases member
  rcases attached.id with ⟨prev, found, id⟩ | ⟨_, above⟩
  · obtain ⟨inLive', owned⟩ :=
      List.mem_filter.mp (List.mem_of_find?_eq_some found)
    have equal := eq_of_key (nodup_geoIds setup.rendered) inLive inLive'
      (same.trans id)
    subst equal
    refine ⟨by simpa using List.find?_some found, ?_⟩
    simp only [Bool.and_eq_true, decide_eq_true_eq] at owned
    exact owned.1.trans attached.rule.symm
  · have least := above known.id (List.mem_map_of_mem inLive)
    omega

/-- The node of a policy before it is written, and what is read of it. -/
theorem raw_policy (policy : GeoPolicy) :
    ((fetchGeolocation root).find? (fun other => other.id = policy.id) = none →
      slice ["policy", policyKey policy] (slice geoNode root) = .node []) ∧
    ∀ known ∈ (fetchGeolocation root).find? (fun other =>
        other.id = policy.id),
      (subtree ["policy", policyKey policy]
        (slice geoNode root)).isSome = true ∧
      parseGeoPolicy (policyKey policy)
        (slice ["policy", policyKey policy] (slice geoNode root)) = known := by
  constructor
  · intro absent
    cases found : subtree ["policy", policyKey policy] (slice geoNode root) with
    | none => rw [slice, found, Option.getD_none]
    | some cfg =>
        have member : parseGeoPolicy (policyKey policy) cfg ∈
            fetchGeolocation root :=
          (mem_fetchGeolocation_slice setup.rendered.conforms).mpr
            ⟨_, cfg, found, rfl⟩
        refine absurd ?_ (List.find?_eq_none.mp absent _ member)
        rw [decide_eq_true_eq]
        exact ruleNumber_toString policy.id
  · intro known there
    obtain ⟨inLive, same⟩ := known_of_find there
    obtain ⟨cfg, found, reads⟩ := setup.policy_node inLive
    have key : policyKey known = policyKey policy := by
      rw [policyKey, same, policyKey]
    rw [key] at found reads
    rw [slice_of_found found, found]
    exact ⟨rfl, reads⟩

theorem subtree_wanted {policy : GeoPolicy}
    (member : policy ∈ wantedPolicies (fetchGeolocation root) rule
      scopes.chains choice) : ∃ cfg,
    subtree ["policy", policyKey policy]
        (slice geoNode (geoSaved schema root rule scopes choice)) = some cfg ∧
      parseGeoPolicy (policyKey policy) cfg = policy := by
  have nodes := policy_nodes schema
  have conforms := setup.rendered.conforms.slice (nodes "").1
  have inEdits : policyEdit (fetchGeolocation root) policy ∈
      (wantedPolicies (fetchGeolocation root) rule scopes.chains choice).map
        (policyEdit (fetchGeolocation root)) := List.mem_map_of_mem member
  have distinct : (((wantedPolicies (fetchGeolocation root) rule scopes.chains
      choice).map (policyEdit (fetchGeolocation root))).map
        RowEdit.key).Nodup := by
    have ids : ((wantedPolicies (fetchGeolocation root) rule scopes.chains
      choice).map GeoPolicy.id).Nodup := setup.nodup_wanted
    have injective : Function.Injective fun id : Nat => toString id :=
      fun _ _ => toString_injective
    have keys := ids.map injective
    rw [List.map_map] at keys ⊢
    exact keys
  have separate := separate_policyFields
    ((fetchGeolocation root).find? fun other => other.id = policy.id) policy
  obtain ⟨absent, known⟩ := setup.raw_policy policy
  rw [setup.slice_saved]
  have commands : (policyEdit (fetchGeolocation root) policy).commands =
      laid (policyFields ((fetchGeolocation root).find? fun other =>
        other.id = policy.id) policy) := rfl
  have proper : ∀ command ∈ (policyEdit (fetchGeolocation root)
      policy).commands, command ≠ .delete [] := by
    rw [commands]
    exact separate.proper (by simp [written, policyFields])
  have edited := Editing.subtree_editRows_edited (fun key => (nodes key).2)
    conforms distinct inEdits (setup.wanted_not_dropped member) proper ?_
  · have here := conforms.slice (nodes (policyKey policy)).2
    have shaped : Shaped ((schema.kinds.below geoNode).below
      ["policy", policyKey policy]) geoShape := setup.leaves (policyKey policy)
    have reads := parse_written here shaped (setup.writable_wanted member)
      (ruleNumber_toString policy.id) absent fun policy' there => by
        obtain ⟨inLive, same⟩ := known_of_find there
        exact ⟨(known policy' there).2,
          setup.written_over member inLive same⟩
    rw [commands] at edited
    exact ⟨_, edited, reads⟩
  · cases there : (fetchGeolocation root).find? fun other =>
        other.id = policy.id with
    | some policy' => exact .inl (known policy' there).1
    | none =>
        right
        have first : Command.set (["action"] ++ [policy.action]) ∈
            (policyEdit (fetchGeolocation root) policy).commands := by
          have plain := (setup.writable_wanted member).action
          rw [policyEdit, there, policyFields, laid, List.flatMap_cons,
            Option.map_none, leaf_of_trimmed plain,
            if_neg (Option.some_ne_none _)]
          exact List.mem_cons_self
        exact List.any_eq_true.mpr ⟨_, first, rfl⟩

/-- The policies that are read afterwards. -/
theorem mem_saved {policy : GeoPolicy} :
    policy ∈ fetchGeolocation (geoSaved schema root rule scopes choice) ↔
      policy ∈ wantedPolicies (fetchGeolocation root) rule scopes.chains choice ∨
      policy ∈ fetchGeolocation root ∧
        policyKey policy ∉ (wantedPolicies (fetchGeolocation root) rule
          scopes.chains choice).map policyKey ∧
        policyKey policy ∉ (droppedPolicies (fetchGeolocation root) rule
          scopes.chains choice).map policyKey := by
  have conforms : Conforms schema.kinds
      (geoSaved schema root rule scopes choice) :=
    setup.rendered.conforms.executeAll
  rw [mem_fetchGeolocation_slice conforms]
  constructor
  · rintro ⟨key, cfg, found, rfl⟩
    by_cases isWanted : key ∈ (wantedPolicies (fetchGeolocation root) rule
        scopes.chains choice).map policyKey
    · obtain ⟨policy, member, rfl⟩ := List.mem_map.mp isWanted
      obtain ⟨cfg', found', reads⟩ := setup.subtree_wanted member
      rw [found] at found'
      cases found'
      exact .inl (reads.symm ▸ member)
    · by_cases goes : key ∈ (droppedPolicies (fetchGeolocation root) rule
          scopes.chains choice).map policyKey
      · rw [setup.subtree_dropped isWanted goes] at found
        cases found
      · rw [setup.subtree_other isWanted goes] at found
        have decimal : policyKey (parseGeoPolicy key cfg) = key :=
          (setup.policy_key found).symm
        rw [decimal]
        exact .inr ⟨(mem_fetchGeolocation_slice setup.rendered.conforms).mpr
          ⟨key, cfg, found, rfl⟩, isWanted, goes⟩
  · rintro (member | ⟨inLive, unwanted, stays⟩)
    · obtain ⟨cfg, found, reads⟩ := setup.subtree_wanted member
      exact ⟨_, cfg, found, reads⟩
    · obtain ⟨cfg, found, reads⟩ := setup.policy_node inLive
      rw [← setup.subtree_other unwanted stays] at found
      exact ⟨_, cfg, found, reads⟩

theorem nodup_saved :
    ((fetchGeolocation (geoSaved schema root rule scopes choice)).map
      GeoPolicy.id).Nodup := by
  refine nodup_geoIds_of_decimal setup.rendered.conforms.executeAll ?_
  intro key body atKey
  have found : subtree ["policy", key] (slice geoNode
      (geoSaved schema root rule scopes choice)) = some body := by
    rw [subtree_slice (List.cons_ne_nil _ _)]
    exact atKey
  by_cases isWanted : key ∈ (wantedPolicies (fetchGeolocation root) rule
      scopes.chains choice).map policyKey
  · obtain ⟨policy, _, rfl⟩ := List.mem_map.mp isWanted
    rw [policyKey, ruleNumber_toString]
  · by_cases goes : key ∈ (droppedPolicies (fetchGeolocation root) rule
        scopes.chains choice).map policyKey
    · rw [setup.subtree_dropped isWanted goes] at found
      cases found
    · rw [setup.subtree_other isWanted goes] at found
      exact setup.policy_key found

end GeoSetup

/-! ## What a save is to leave -/

/-- The policies written for a rule: those on its scopes, old and new, and
for a zone rule those on any pair. -/
def OfRule (rule : Nat) (old chains : List RuleChain) (policy : GeoPolicy) :
    Prop :=
  policy.rule = rule ∧ (policy.ruleset ∈ old ∨ policy.ruleset ∈ chains ∨
    policy.ruleset.isBaseChain = false ∧
      ∃ chain ∈ chains, chain.isBaseChain = false)

/-- Each scope has one policy as it was chosen, the scopes left have none, and
nothing else changes. -/
structure GeoAttached (live after : List GeoPolicy) (rule : Nat)
    (old chains : List RuleChain) (choice : Option GeoChoice) : Prop where
  each : ∀ selected ∈ choice, ∀ chain ∈ chains,
    ∃ policy ∈ after, policy.rule = rule ∧ policy.ruleset = chain ∧
      policy.enabled = true ∧ policy.action = selected.action ∧
      policy.direction = selected.direction ∧
      ∀ other ∈ after, other.rule = rule → other.ruleset = chain →
        other = policy
  detached : choice = none →
    ∀ policy ∈ after, policy.rule = rule → policy.ruleset ∉ chains
  left : ∀ policy ∈ after, policy.rule = rule → policy.ruleset ∈ old →
    policy.ruleset ∈ chains
  distinct : (after.map GeoPolicy.id).Nodup
  fresh : ∀ policy ∈ after, ∀ known ∈ live, known.id = policy.id →
    known.ruleset = policy.ruleset ∧ known.rule = policy.rule
  others : ∀ policy, ¬ OfRule rule old chains policy →
    (policy ∈ after ↔ policy ∈ live)

/-- No scope has two policies of the rule, unless all go, and what is on a
scope the rule left is on a zone pair, of a rule that still has one. -/
structure GeoSettled (live : List GeoPolicy) (rule : Nat)
    (old chains : List RuleChain) (choice : Option GeoChoice) : Prop where
  single : choice.isSome = true → ∀ first ∈ live, ∀ second ∈ live,
    first.rule = rule → second.rule = rule → first.ruleset ∈ chains →
      first.ruleset = second.ruleset → first = second
  left : ∀ policy ∈ live, policy.rule = rule → policy.ruleset ∈ old →
    policy.ruleset ∉ chains → policy.ruleset.isBaseChain = false ∧
      ∃ chain ∈ chains, chain.isBaseChain = false

theorem mem_policiesForRule {live : List GeoPolicy} {rule : Nat}
    {chains : List RuleChain} {policy : GeoPolicy} :
    policy ∈ policiesForRule live rule chains ↔ policy ∈ live ∧
      policy.rule = rule ∧ (policy.ruleset ∈ chains ∨
        policy.ruleset.isBaseChain = false ∧
          ∃ chain ∈ chains, chain.isBaseChain = false) := by
  simp only [policiesForRule, List.mem_filter, Bool.and_eq_true,
    Bool.or_eq_true, decide_eq_true_eq, List.any_eq_true, Bool.not_eq_true',
    and_comm (a := ∃ chain ∈ chains, _)]

theorem mem_droppedPolicies {live : List GeoPolicy} {rule : Nat}
    {chains : List RuleChain} {choice : Option GeoChoice} {policy : GeoPolicy} :
    policy ∈ droppedPolicies live rule chains choice ↔
      policy ∈ policiesForRule live rule chains ∧
        (choice = none ∨ policy.ruleset ∉ chains) := by
  simp [droppedPolicies]

namespace GeoSetup

variable {schema : Schema} {root : Cfg} {rule : Nat} {scopes : ScopeSet}
  {choice : Option GeoChoice} (setup : GeoSetup schema root choice)
  {old : List RuleChain}
include setup

/-- A policy of which a key is deleted is itself dropped. -/
theorem dropped_of_key {policy : GeoPolicy}
    (member : policy ∈ fetchGeolocation root)
    (goes : policyKey policy ∈ (droppedPolicies (fetchGeolocation root) rule
      scopes.chains choice).map policyKey) :
    policy ∈ droppedPolicies (fetchGeolocation root) rule scopes.chains
      choice := by
  obtain ⟨other, dropped, same⟩ := of_policyKey goes
  have inLive := (mem_policiesForRule.mp (mem_droppedPolicies.mp dropped).1).1
  rw [eq_of_key (nodup_geoIds setup.rendered) member inLive same]
  exact dropped

/-- A policy of a current scope is there afterwards, as it was or as wanted. -/
theorem kept_on_scope (chosen : choice ≠ none) {policy : GeoPolicy}
    (member : policy ∈ fetchGeolocation root)
    (inScopes : policy.ruleset ∈ scopes.chains) :
    ∃ after ∈ fetchGeolocation (geoSaved schema root rule scopes choice),
      after.id = policy.id ∧ after.rule = policy.rule ∧
        after.ruleset = policy.ruleset := by
  by_cases isWanted : policyKey policy ∈ (wantedPolicies
      (fetchGeolocation root) rule scopes.chains choice).map policyKey
  · obtain ⟨wanted, inWanted, same⟩ := of_policyKey isWanted
    obtain ⟨ruleset, number⟩ := setup.written_over inWanted member same
    exact ⟨wanted, setup.mem_saved.mpr (.inl inWanted), same.symm, number.symm,
      ruleset.symm⟩
  · refine ⟨policy, setup.mem_saved.mpr (.inr ⟨member, isWanted, ?_⟩), rfl, rfl,
      rfl⟩
    intro goes
    have dropped := setup.dropped_of_key member goes
    rcases (mem_droppedPolicies.mp dropped).2 with none' | outside
    · exact chosen none'
    · exact outside inScopes

theorem fresh_saved {policy known : GeoPolicy}
    (member : policy ∈ fetchGeolocation
      (geoSaved schema root rule scopes choice))
    (inLive : known ∈ fetchGeolocation root) (same : known.id = policy.id) :
    known.ruleset = policy.ruleset ∧ known.rule = policy.rule := by
  rcases setup.mem_saved.mp member with inWanted | ⟨stays, _⟩
  · exact setup.written_over inWanted inLive same
  · rw [eq_of_key (nodup_geoIds setup.rendered) inLive stays same]
    exact ⟨rfl, rfl⟩

theorem others_saved {policy : GeoPolicy}
    (other : ¬ OfRule rule old scopes.chains policy) :
    policy ∈ fetchGeolocation (geoSaved schema root rule scopes choice) ↔
      policy ∈ fetchGeolocation root := by
  rw [setup.mem_saved]
  constructor
  · rintro (inWanted | ⟨member, _⟩)
    · obtain ⟨selected, _, inScopes, attached⟩ := wanted_cases inWanted
      exact absurd ⟨attached.rule, .inr (.inl inScopes)⟩ other
    · exact member
  · intro member
    refine .inr ⟨member, fun isWanted => ?_, fun goes => ?_⟩
    · obtain ⟨wanted, inWanted, same⟩ := of_policyKey isWanted
      obtain ⟨ruleset, number⟩ := setup.written_over inWanted member same
      obtain ⟨selected, _, inScopes, attached⟩ := wanted_cases inWanted
      exact other ⟨number.trans attached.rule, .inr (.inl (ruleset ▸ inScopes))⟩
    · have dropped := setup.dropped_of_key member goes
      obtain ⟨_, number, scope⟩ :=
        mem_policiesForRule.mp (mem_droppedPolicies.mp dropped).1
      exact other ⟨number, .inr scope⟩

theorem each_of_settled (settled : GeoSettled (fetchGeolocation root) rule
      old scopes.chains choice) {selected : GeoChoice}
    (selects : choice = some selected) {chain : RuleChain}
    (inScopes : chain ∈ scopes.chains) :
    ∃ policy ∈ fetchGeolocation (geoSaved schema root rule scopes choice),
      policy.rule = rule ∧ policy.ruleset = chain ∧
      policy.enabled = true ∧ policy.action = selected.action ∧
      policy.direction = selected.direction ∧
      ∀ other ∈ fetchGeolocation (geoSaved schema root rule scopes choice),
        other.rule = rule → other.ruleset = chain → other = policy := by
  subst selects
  obtain ⟨policy, inWanted, rfl⟩ : ∃ policy ∈ wantedPolicies
      (fetchGeolocation root) rule scopes.chains (some selected),
      policy.ruleset = chain := by
    rw [← @rulesets_attachments (policiesForRule (fetchGeolocation root) rule
      scopes.chains) rule selected scopes.chains] at inScopes
    exact List.mem_map.mp inScopes
  have attached := attachment_of_mem inWanted
  refine ⟨policy, setup.mem_saved.mpr (.inl inWanted), attached.rule, rfl,
    attached.enabled, attached.action, attached.direction, ?_⟩
  intro other member number scope
  have rulesets : ((wantedPolicies (fetchGeolocation root) rule scopes.chains
      (some selected)).map GeoPolicy.ruleset).Nodup := by
    rw [wantedPolicies, rulesets_attachments]
    exact scopes.distinct
  rcases setup.mem_saved.mp member with wanted | ⟨inLive, unwanted, _⟩
  · exact eq_of_key rulesets wanted inWanted scope
  · -- What is there on the scope is the first there, which is written over.
    have owned : other ∈ policiesForRule (fetchGeolocation root) rule
        scopes.chains :=
      mem_policiesForRule.mpr ⟨inLive, number, .inl (scope ▸ inScopes)⟩
    rcases attached.id with ⟨prev, found, id⟩ | ⟨absent, _⟩
    · obtain ⟨prevLive, prevNumber, _⟩ :=
        mem_policiesForRule.mp (List.mem_of_find?_eq_some found)
      have prevScope : prev.ruleset = policy.ruleset := by
        simpa using List.find?_some found
      have same := settled.single rfl prev prevLive other inLive prevNumber
        number (prevScope ▸ inScopes) (prevScope.trans scope.symm)
      refine absurd (List.mem_map.mpr ⟨policy, inWanted, ?_⟩) unwanted
      rw [policyKey, id, same, policyKey]
    · have none' := List.find?_eq_none.mp absent other owned
      simp [scope] at none'

theorem attached_of_settled (settled : GeoSettled (fetchGeolocation root) rule
    old scopes.chains choice) :
    GeoAttached (fetchGeolocation root)
      (fetchGeolocation (geoSaved schema root rule scopes choice)) rule old
        scopes.chains choice where
  each selected selects chain inScopes :=
    setup.each_of_settled settled selects inScopes
  detached := by
    rintro rfl policy member number inScopes
    rcases setup.mem_saved.mp member with inWanted | ⟨inLive, _, stays⟩
    · cases inWanted
    · refine stays (List.mem_map_of_mem (mem_droppedPolicies.mpr ⟨?_, .inl rfl⟩))
      exact mem_policiesForRule.mpr ⟨inLive, number, .inl inScopes⟩
  left := by
    intro policy member number inOld
    rcases setup.mem_saved.mp member with inWanted | ⟨inLive, _, stays⟩
    · obtain ⟨_, _, inScopes, _⟩ := wanted_cases inWanted
      exact inScopes
    · by_contra outside
      have zones := settled.left policy inLive number inOld outside
      refine stays (List.mem_map_of_mem
        (mem_droppedPolicies.mpr ⟨?_, .inr outside⟩))
      exact mem_policiesForRule.mpr ⟨inLive, number, .inr zones⟩
  distinct := setup.nodup_saved
  fresh _ member _ inLive same := setup.fresh_saved member inLive same
  others _ other := setup.others_saved other

theorem settled_of_attached (attached : GeoAttached (fetchGeolocation root)
      (fetchGeolocation (geoSaved schema root rule scopes choice)) rule old
        scopes.chains choice) :
    GeoSettled (fetchGeolocation root) rule old scopes.chains choice where
  single := by
    intro chosen first inLive second inLive' number number' inScopes same
    obtain ⟨selected, selects⟩ := Option.isSome_iff_exists.mp chosen
    have some' : choice ≠ none := Option.isSome_iff_ne_none.mp chosen
    obtain ⟨one, member, id, rule', scope⟩ :=
      setup.kept_on_scope some' inLive inScopes
    obtain ⟨two, member', id', rule'', scope'⟩ :=
      setup.kept_on_scope some' inLive' (same ▸ inScopes)
    obtain ⟨policy, _, _, _, _, _, _, only⟩ :=
      attached.each selected selects first.ruleset inScopes
    have equal : one = two :=
      (only one member (rule'.trans number) scope).trans
        (only two member' (rule''.trans number')
          (scope'.trans same.symm)).symm
    refine eq_of_key (nodup_geoIds setup.rendered) inLive inLive' ?_
    rw [← id, equal, id']
  left := by
    intro policy member number inOld outside
    have gone : policy ∉ fetchGeolocation
        (geoSaved schema root rule scopes choice) := fun there =>
      outside (attached.left policy there number inOld)
    have unwanted : policyKey policy ∉ (wantedPolicies (fetchGeolocation root)
        rule scopes.chains choice).map policyKey := by
      intro isWanted
      obtain ⟨wanted, inWanted, same⟩ := of_policyKey isWanted
      obtain ⟨_, _, inScopes, _⟩ := wanted_cases inWanted
      have ruleset := (setup.written_over inWanted member same).1
      exact outside (ruleset ▸ inScopes)
    have goes : policyKey policy ∈ (droppedPolicies (fetchGeolocation root)
        rule scopes.chains choice).map policyKey := by
      by_contra stays
      exact gone (setup.mem_saved.mpr (.inr ⟨member, unwanted, stays⟩))
    have dropped := setup.dropped_of_key member goes
    have scope := (mem_policiesForRule.mp
      (mem_droppedPolicies.mp dropped).1).2.2
    exact scope.resolve_left outside

end GeoSetup

/-- Saving a rule's policies leaves one on each of its scopes and none on those
it left exactly if no scope had two and no base chain is left. -/
theorem geoPolicies_attached_iff {schema : Schema} {root : Cfg}
    {choice : Option GeoChoice} (setup : GeoSetup schema root choice)
    (rule : Nat) (old : List RuleChain) (scopes : ScopeSet) :
    GeoAttached (fetchGeolocation root)
        (fetchGeolocation (executeAll schema.kinds
          (diffGeoPoliciesForRule (fetchGeolocation root) rule scopes.chains
            choice) root)) rule old scopes.chains choice ↔
      GeoSettled (fetchGeolocation root) rule old scopes.chains choice :=
  ⟨setup.settled_of_attached, setup.attached_of_settled⟩

theorem geoLeaves_vyos : GeoLeaves vyosSchema.kinds := by
  intro id field member
  simp only [geoShape, List.mem_cons, List.not_mem_nil, or_false] at member
  rcases member with rfl | rfl | rfl | rfl | rfl <;>
    exact ⟨List.cons_ne_nil _ _, trivial, rfl⟩

/-- Policies with the given numbers, rulesets and rules. -/
def geoConfig (policies : List (String × String × String)) : Cfg :=
  .node [("service", .node [("geolocation", .node [("policy", .node
    (policies.map fun (number, ruleset, rule) => (number, .node
      [("action", .value "Block_CN"), ("ruleset", .value ruleset),
        ("rule", .value rule)])))])])]

def blockRu : Option GeoChoice := some ⟨"Block_RU", .source⟩

/-- A zone rule that goes from one pair to two others. -/
def movedPairs : ScopeSet where
  chains := [.name "QZ-Z-LAN-TO-WAN", .name "QZ-Z-LAN-TO-DMZ"]
  distinct := by decide
  trims := by decide

theorem geoPolicies_attached_moved :
    let root := geoConfig [("3", "name:QZ-Z-DMZ-TO-WAN", "20"),
      ("10", "name:QZ-Z-LAN-TO-WAN", "20"), ("11", "forward", "20")]
    GeoAttached (fetchGeolocation root)
      (fetchGeolocation (executeAll vyosKind
        (diffGeoPoliciesForRule (fetchGeolocation root) 20 movedPairs.chains
          blockRu) root)) 20 [.name "QZ-Z-DMZ-TO-WAN"] movedPairs.chains
      blockRu := by
  intro root
  have setup : GeoSetup vyosSchema root blockRu :=
    { rendered := rendered_of_check rfl (by decide +kernel)
      leaves := geoLeaves_vyos
      named := by decide }
  refine (geoPolicies_attached_iff setup 20 [.name "QZ-Z-DMZ-TO-WAN"]
    movedPairs).mpr ⟨fun _ => ?_, ?_⟩
  · decide +kernel
  · decide +kernel

/-- Of two policies on one scope the second stays. -/
theorem geoPolicies_doubled :
    let root := geoConfig [("1", "forward", "10"), ("2", "forward", "10")]
    ¬ GeoAttached (fetchGeolocation root)
      (fetchGeolocation (executeAll vyosKind
        (diffGeoPoliciesForRule (fetchGeolocation root) 10 [.base .forward]
          blockRu) root)) 10 [.base .forward] [.base .forward] blockRu := by
  intro root attached
  obtain ⟨policy, _, _, _, _, _, _, only⟩ :=
    attached.each _ rfl (.base .forward) (by decide)
  have first := only ⟨1, "Block_RU", .base .forward, 10, .source, true⟩
    (by decide +kernel) rfl rfl
  have second := only ⟨2, "Block_CN", .base .forward, 10, .both, true⟩
    (by decide +kernel) rfl rfl
  rw [← second] at first
  cases first

end QuartzFire.Firewall
