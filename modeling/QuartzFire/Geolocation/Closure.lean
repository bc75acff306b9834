import Mathlib
import QuartzFire.Foundation.LetterCase
import QuartzFire.Geolocation.Render

/-!
# What the rendered script declares

Everything a rule of the script names is declared in it, and the names of
different things differ.
-/

namespace QuartzFire.Geolocation

open Nft

/-! ## Ordered sets -/

section Ordered

variable {Item : Type} [DecidableEq Item] {le : Item → Item → Bool}

@[simp] theorem mem_ordered {item : Item} {items : List Item} :
    item ∈ ordered le items ↔ item ∈ items := by
  rw [ordered, List.mem_mergeSort, List.mem_dedup]

theorem nodup_ordered (items : List Item) : (ordered le items).Nodup :=
  (List.mergeSort_perm _ le).nodup_iff.mpr (List.nodup_dedup items)

@[simp] theorem mem_orderedTexts {text : String} {texts : List String} :
    text ∈ orderedTexts texts ↔ text ∈ texts :=
  mem_ordered

end Ordered

/-! ## Validated models -/

/-- What the rendering relies on of a valid model. -/
structure Validated (model : Model) : Prop where
  country : ∀ {name action}, model.actions.lookup name = some action →
    ∀ cc ∈ action.countries, ccOk cc = true
  mode : ∀ {name action}, model.actions.lookup name = some action →
    action.mode = some "block-listed" ∨ action.mode = some "allow-listed"
  unknown : ∀ {name action}, model.actions.lookup name = some action →
    action.unknown = "allow" ∨ action.unknown = "block"
  direction : ∀ policy ∈ model.policies, policy.direction ∈ directions

theorem ccOk_of_countryProblems {place : String}
    {codes : Option (List String)} {countries seen : List String}
    (valid : countryProblems place codes countries seen = []) :
    ∀ cc ∈ countries, ccOk cc = true := by
  induction countries generalizing seen with
  | nil => simp
  | cons cc rest ih =>
      rw [countryProblems] at valid
      split at valid
      · cases valid
      · rename_i known
        rw [List.append_eq_nil_iff] at valid
        exact List.forall_mem_cons.mpr ⟨by simpa using known, ih valid.2⟩

theorem direction_of_policiesProblems {model : Model} {before : List Nat}
    {policies : List Policy}
    (valid : policiesProblems model before policies = []) :
    ∀ policy ∈ policies, policy.direction ∈ directions := by
  induction policies generalizing before with
  | nil => simp
  | cons policy rest ih =>
      rw [policiesProblems, List.append_eq_nil_iff] at valid
      refine List.forall_mem_cons.mpr ⟨?_, ih valid.2⟩
      have last := (List.append_eq_nil_iff.mp valid.1).2
      by_contra unknown
      rw [if_neg unknown] at last
      cases last

theorem validated_of_validate {model : Model} {codes : Option (List String)}
    (valid : validate model codes = []) : Validated model := by
  obtain ⟨actions, policies⟩ := List.append_eq_nil_iff.mp valid
  have each : ∀ {name action}, model.actions.lookup name = some action →
      actionProblems codes (name, action) = [] := by
    intro name action found
    obtain ⟨before, after, split, _⟩ := List.lookup_eq_some_iff.mp found
    exact List.flatMap_eq_nil_iff.mp actions _ (by simp [split])
  constructor
  · intro name action found
    have problems := each found
    simp only [actionProblems, List.append_eq_nil_iff] at problems
    exact ccOk_of_countryProblems problems.1.2
  · intro name action found
    have problems := each found
    simp only [actionProblems, List.append_eq_nil_iff] at problems
    have chosen := problems.1.1.1.2
    split at chosen
    · rename_i mode set
      split at chosen
      · rename_i listed
        simpa [set, modes] using listed
      · cases chosen
    · cases chosen
  · intro name action found
    have problems := each found
    simp only [actionProblems, List.append_eq_nil_iff] at problems
    have handled := problems.2
    split at handled
    · rename_i listed
      simpa [unknownHandling] using listed
    · cases handled
  · exact direction_of_policiesProblems policies

/-! ## Names -/

theorem toUpper_toLower_toUpper (text : String) :
    text.toUpper.toLower.toUpper = text.toUpper := by
  apply String.toList_injective
  simp only [toList_toUpper, toList_toLower, List.map_map]
  exact List.map_congr_left fun char _ => upper_lower_upper char

/-- Upper-case codes are told apart by their lower case. -/
theorem toLower_injective_upper {left right : String}
    (same : left.toUpper.toLower = right.toUpper.toLower) :
    left.toUpper = right.toUpper := by
  rw [← toUpper_toLower_toUpper left, same, toUpper_toLower_toUpper]

theorem length_le_utf8ByteSize (text : String) :
    text.toList.length ≤ text.utf8ByteSize := by
  have each : ∀ chars : List Char,
      chars.length ≤ (String.ofList chars).utf8ByteSize := by
    intro chars
    induction chars using List.reverseRecOn with
    | nil => exact Nat.zero_le _
    | append_singleton chars char ih =>
        have pushed : String.ofList (chars ++ [char]) =
            (String.ofList chars).push char := by
          apply String.toList_injective
          simp
        have positive := char.utf8Size_pos
        rw [pushed, String.utf8ByteSize_push, List.length_append,
          List.length_singleton]
        omega
  have own := each text.toList
  rwa [String.ofList_toList] at own

/-- No country is called like the whole database. -/
theorem toLower_ne_known {cc : String} (accepted : ccOk cc = true) :
    cc.toUpper.toLower ≠ known.toLower := by
  intro same
  have size : cc.utf8ByteSize = 2 := by
    simp only [ccOk, Bool.and_eq_true, decide_eq_true_iff] at accepted
    exact accepted.1
  have short := length_le_utf8ByteSize cc
  have longer : cc.toList.length = 5 := by
    have lengths := congrArg (List.length ∘ String.toList) same
    simpa [toList_toUpper, toList_toLower, known]
      using lengths
  omega

theorem setName_injective {left right : String} {family other : Family}
    (same : setName left family = setName right other) :
    left.toLower = right.toLower ∧ family = other := by
  have texts := congrArg String.toList same
  cases family <;> cases other <;>
    simp [setName, String.toList_append] at texts
  · exact ⟨String.toList_injective texts, rfl⟩
  · exact ⟨String.toList_injective texts, rfl⟩

@[simp] theorem familyOfSet_setName (cc : String) (family : Family) :
    familyOfSet (setName cc family) = family := by
  cases family <;> simp [familyOfSet, setName, String.toList_append]

theorem counterName_injective {left right : String}
    (same : counterName left = counterName right) : left = right := by
  have texts := congrArg String.toList same
  simp only [counterName, String.toList_append] at texts
  exact String.toList_injective (List.append_cancel_left texts)

theorem countryCounterName_injective {left right : String}
    (same : countryCounterName left = countryCounterName right) :
    left.toLower = right.toLower := by
  have texts := congrArg String.toList same
  simp only [countryCounterName, String.toList_append] at texts
  exact String.toList_injective (List.append_cancel_left texts)

theorem counterName_ne_countryCounterName (action cc : String) :
    counterName action ≠ countryCounterName cc := by
  intro same
  have texts := congrArg String.toList same
  simp [counterName, countryCounterName, String.toList_append] at texts

theorem chainName_source (action : String) :
    chainName action "source" = "act_" ++ action ++ "_src" := by
  rw [chainName, if_pos rfl]

theorem chainName_destination (action : String) :
    chainName action "destination" = "act_" ++ action ++ "_dst" := by
  rw [chainName, if_neg (by decide)]

theorem chainName_injective {action other direction way : String}
    (known : direction = "source" ∨ direction = "destination")
    (known' : way = "source" ∨ way = "destination")
    (same : chainName action direction = chainName other way) :
    action = other ∧ direction = way := by
  have texts := congrArg String.toList same
  have differ : "_src".toList ≠ "_dst".toList := by decide
  rcases known with rfl | rfl <;> rcases known' with rfl | rfl <;>
    simp only [chainName_source, chainName_destination,
      String.toList_append] at texts
  · have parts := List.append_inj' texts rfl
    exact ⟨String.toList_injective (List.append_cancel_left parts.1), rfl⟩
  · exact absurd (List.append_inj' texts rfl).2 differ
  · exact absurd (List.append_inj' texts rfl).2.symm differ
  · have parts := List.append_inj' texts rfl
    exact ⟨String.toList_injective (List.append_cancel_left parts.1), rfl⟩

/-! ## Policies that are enforced -/

/-- An enabled policy with a match, and its action. -/
structure Enforced (model : Model) (found : List (Nat × Option Match))
    (policy : Policy) (expr : Match) (name : String) (action : Action)
    (ruleset : String) : Prop where
  enabled : policy.enabled = true
  found : (found.lookup policy.id).join = some expr
  named : policy.action = some name
  action : model.actions.lookup name = some action
  ruleset : policy.ruleset = some ruleset

section Rendered

variable {model : Model} {found : List (Nat × Option Match)}
  {hookAt : List (Nat × String)}

theorem mem_policyJumps {policy : Policy} {jump : Jump} :
    jump ∈ policyJumps model found hookAt policy ↔
      ∃ expr name action ruleset,
        Enforced model found policy expr name action ruleset ∧
        ∃ direction ∈ directionsOf policy,
          jump = ⟨hookOf hookAt policy ruleset, name, direction,
            jumpRule policy.id expr name direction⟩ := by
  constructor
  · intro member
    unfold policyJumps at member
    split at member
    · rename_i expr name ruleset enabled resolved named targets
      split at member
      · rename_i configured
        obtain ⟨action, chosen⟩ := Option.isSome_iff_exists.mp configured
        obtain ⟨direction, inside, rfl⟩ := List.mem_map.mp member
        exact ⟨expr, name, action, ruleset,
          ⟨enabled, resolved, named, chosen, targets⟩, direction, inside, rfl⟩
      · cases member
    · cases member
  · rintro ⟨expr, name, action, ruleset, enforced, direction, inside, rfl⟩
    unfold policyJumps
    rw [enforced.enabled, enforced.found, enforced.named, enforced.ruleset]
    simp only [enforced.action, Option.isSome_some, if_true]
    exact List.mem_map.mpr ⟨direction, inside, rfl⟩

theorem mem_jumps {jump : Jump} :
    jump ∈ jumps model found hookAt ↔
      ∃ policy ∈ model.policies, ∃ expr name action ruleset,
        Enforced model found policy expr name action ruleset ∧
        ∃ direction ∈ directionsOf policy,
          jump = ⟨hookOf hookAt policy ruleset, name, direction,
            jumpRule policy.id expr name direction⟩ := by
  rw [jumps, List.mem_flatMap]
  simp only [List.mem_mergeSort, mem_policyJumps]

theorem ruleText_jumpRule (policy : Nat) (expr : Match)
    (action direction : String) :
    ruleText (jumpRule policy expr action direction) =
      "ct state new" ++ (if expr.text = "" then "" else " " ++ expr.text) ++
        " counter jump " ++ chainName action direction ++
        " comment \"qz-geo-p" ++ toString policy ++ "\"" := by
  apply String.toList_injective
  by_cases any : expr = []
  · rw [if_pos (text_eq_empty.mpr any)]
    simp [ruleText, jumpRule, any, statementText, GeoTest.text,
      GeoEffect.text, String.intercalate_cons_cons]
  · rw [if_neg fun empty => any (text_eq_empty.mp empty)]
    simp [ruleText, jumpRule, any, statementText, GeoTest.text,
      GeoEffect.text, String.intercalate_cons_cons]

theorem lookup_map_text (found : List (Nat × Option Match)) (policy : Nat) :
    (found.map fun entry => (entry.1, entry.2.map Match.text)).lookup policy =
      (found.lookup policy).map (Option.map Match.text) := by
  induction found with
  | nil => rfl
  | cons first rest ih =>
      rw [List.map_cons, List.lookup_cons, List.lookup_cons, ih]
      cases policy == first.1 <;> rfl

/-- The rules of the hook chains are written as a resolution's texts say. -/
theorem hookRules_eq :
    hookRules model (found.map fun entry => (entry.1, entry.2.map Match.text))
        hookAt =
      (jumps model found hookAt).map fun jump =>
        (jump.hook, ruleText jump.rule) := by
  rw [hookRules, jumps, List.map_flatMap]
  refine List.flatMap_congr fun policy _ => ?_
  have resolved : ((found.map fun entry =>
      (entry.1, entry.2.map Match.text)).lookup policy.id).join =
        ((found.lookup policy.id).join).map Match.text := by
    rw [lookup_map_text]
    cases found.lookup policy.id <;> rfl
  unfold policyRules policyJumps
  rw [resolved]
  rcases policy.enabled with _ | _ <;>
    rcases (found.lookup policy.id).join with _ | expr <;>
    rcases policy.action with _ | action <;>
    rcases policy.ruleset with _ | ruleset <;>
    try rfl
  simp only [Option.map_some]
  split
  · rw [List.map_map]
    refine List.map_congr_left fun direction _ => ?_
    rw [Function.comp_apply, ruleText_jumpRule]
  · rfl

theorem mem_usedPairs {name direction : String} :
    (name, direction) ∈ usedPairs model found hookAt ↔
      ∃ jump ∈ jumps model found hookAt,
        jump.action = name ∧ jump.direction = direction := by
  rw [usedPairs, mem_ordered, List.mem_map]
  simp only [Prod.mk.injEq]

theorem directionsOf_known {policy : Policy} {direction : String}
    (inside : direction ∈ directionsOf policy) :
    direction = "source" ∨ direction = "destination" := by
  unfold directionsOf at inside
  split_ifs at inside
  · simpa using inside
  · exact .inl (List.mem_singleton.mp inside)
  · exact .inr (List.mem_singleton.mp inside)

/-- A used action is configured, and some enabled policy names it. -/
theorem used_of_mem_usedPairs {name direction : String}
    (used : (name, direction) ∈ usedPairs model found hookAt) :
    (direction = "source" ∨ direction = "destination") ∧
      ∃ action, model.actions.lookup name = some action ∧
        name ∈ (inUse model).usedActions := by
  obtain ⟨jump, member, rfl, rfl⟩ := mem_usedPairs.mp used
  obtain ⟨policy, listed, expr, name, action, ruleset, enforced, direction,
    inside, rfl⟩ := mem_jumps.mp member
  refine ⟨directionsOf_known inside, action, enforced.action, ?_⟩
  rw [inUse, mem_orderedTexts, List.mem_filterMap]
  refine ⟨policy, listed, ?_⟩
  rw [enforced.named]
  simp [enforced.enabled, enforced.action]

/-! ### What the used actions need is loaded -/

theorem country_mem_inUse {name : String} {action : Action} {cc : String}
    (used : name ∈ (inUse model).usedActions)
    (configured : model.actions.lookup name = some action)
    (listed : cc ∈ action.codes) : cc ∈ (inUse model).countries := by
  rw [Action.codes, mem_orderedTexts] at listed
  simp only [inUse, mem_orderedTexts] at used ⊢
  refine List.mem_flatMap.mpr ⟨action, ?_, listed⟩
  exact List.mem_filterMap.mpr
    ⟨name, mem_orderedTexts.mpr used, configured⟩

theorem needKnown_of_used {name : String} {action : Action}
    (used : name ∈ (inUse model).usedActions)
    (configured : model.actions.lookup name = some action)
    (needs : action.needsKnown = true) : (inUse model).needKnown = true := by
  simp only [inUse, mem_orderedTexts] at used ⊢
  refine List.any_eq_true.mpr ⟨action, ?_, needs⟩
  exact List.mem_filterMap.mpr
    ⟨name, mem_orderedTexts.mpr used, configured⟩

theorem mem_requiredSets {sname : String} :
    sname ∈ requiredSets model ↔
      (∃ cc ∈ (inUse model).countries, ∃ family, sname = setName cc family) ∨
      ((inUse model).needKnown = true ∧
        ∃ family, sname = setName known family) := by
  have families : ∀ cc, sname ∈ [setName cc .v4, setName cc .v6] ↔
      ∃ family, sname = setName cc family := by
    intro cc
    constructor
    · intro member
      rcases List.mem_cons.mp member with first | second
      · exact ⟨.v4, first⟩
      · exact ⟨.v6, List.mem_singleton.mp second⟩
    · rintro ⟨family, rfl⟩
      cases family <;> simp
  rw [requiredSets, mem_orderedTexts, List.mem_append, List.mem_flatMap]
  simp only [families]
  cases (inUse model).needKnown with
  | true => simp only [if_true, families, true_and]
  | false => simp

/-! ## Closed scripts -/

/-- What a statement names is declared.  A replicated match names nothing: its
sets are anonymous. -/
def Script.Declares (script : Script) :
    RuleStatement GeoTest GeoEffect String Empty → Prop
  | .test (.lookup family _ _ sname) =>
      sname ∈ script.sets.map Prod.fst ∧ familyOfSet sname = family
  | .effect (.counterName name) => name ∈ script.counters.map Prod.fst
  | .verdict (.jump chain) => chain ∈ script.chains.map ChainDecl.name
  | _ => True

def Script.Closed (script : Script) : Prop :=
  ∀ chain ∈ script.chains, ∀ rule ∈ chain.rules, ∀ statement ∈ rule,
    script.Declares statement

/-- What the chain of an action names. -/
structure ActionDeclared (script : Script) (name : String) (action : Action) :
    Prop where
  country : ∀ cc ∈ action.codes, ∀ family,
    setName cc family ∈ script.sets.map Prod.fst
  known : action.needsKnown = true → ∀ family,
    setName known family ∈ script.sets.map Prod.fst
  counter : counterName name ∈ script.counters.map Prod.fst
  countryCounter : action.mode = some "block-listed" → ∀ cc ∈ action.codes,
    countryCounterName cc ∈ script.counters.map Prod.fst

theorem declares_inSet {script : Script} {cc : String} {family : Family}
    (declared : setName cc family ∈ script.sets.map Prod.fst)
    (field : AddrField) (negated : Bool) :
    script.Declares (.test (.lookup family field negated
      (setName cc family))) :=
  ⟨declared, familyOfSet_setName cc family⟩

theorem declares_verdict {script : Script} {name : String} {action : Action}
    (declared : counterName name ∈ script.counters.map Prod.fst) :
    ∀ statement ∈ verdict name action, script.Declares statement := by
  intro statement member
  rw [verdict, List.mem_append, List.mem_append, List.mem_singleton,
    List.mem_singleton] at member
  rcases member with (rfl | logged) | rfl
  · exact declared
  · split at logged
    · rw [List.mem_singleton.mp logged]
      trivial
    · cases logged
  · trivial

theorem declares_passCountry {script : Script} {cc : String}
    (declared : ∀ family, setName cc family ∈ script.sets.map Prod.fst)
    (field : AddrField) :
    ∀ rule ∈ passCountry field cc, ∀ statement ∈ rule,
      script.Declares statement := by
  intro rule member statement inside
  obtain ⟨family, _, rfl⟩ := List.mem_map.mp member
  rcases List.mem_cons.mp inside with rfl | last
  · exact declares_inSet (declared family) field false
  · rw [List.mem_singleton.mp last]
    trivial

theorem declares_actionChainRules {script : Script} {name : String}
    {action : Action} (declared : ActionDeclared script name action)
    (direction : String) :
    ∀ rule ∈ actionChainRules name action direction, ∀ statement ∈ rule,
      script.Declares statement := by
  have drops : ∀ statement ∈ verdict name action, script.Declares statement :=
    declares_verdict declared.counter
  intro rule member
  simp only [actionChainRules] at member
  split at member
  · rename_i blocks
    rcases List.mem_append.mp member with listed | rest
    · obtain ⟨cc, inCodes, member⟩ := List.mem_flatMap.mp listed
      obtain ⟨family, _, rfl⟩ := List.mem_map.mp member
      intro statement inside
      rcases List.mem_append.mp inside with head | last
      · rcases List.mem_cons.mp head with rfl | counted
        · exact declares_inSet (declared.country cc inCodes family) _ false
        · rw [List.mem_singleton.mp counted]
          exact declared.countryCounter blocks cc inCodes
      · exact drops statement last
    · split at rest
      · rename_i needs
        rcases List.mem_append.mp rest with passes | last
        · exact declares_passCountry (declared.known needs) _ rule passes
        · rw [List.mem_singleton.mp last]
          exact drops
      · cases rest
  · rcases List.mem_append.mp member with listed | rest
    · obtain ⟨cc, inCodes, member⟩ := List.mem_flatMap.mp listed
      exact declares_passCountry (declared.country cc inCodes) _ rule member
    · rcases List.mem_append.mp rest with passes | last
      · split at passes
        · rename_i needs
          obtain ⟨family, _, rfl⟩ := List.mem_map.mp passes
          intro statement inside
          rcases List.mem_cons.mp inside with rfl | last
          · exact declares_inSet (declared.known needs family) _ true
          · rw [List.mem_singleton.mp last]
            trivial
        · cases passes
      · rw [List.mem_singleton.mp last]
        exact drops

theorem declares_jumpRule {script : Script} {policy : Nat} {expr : Match}
    {action direction : String}
    (declared : chainName action direction ∈
      script.chains.map ChainDecl.name) :
    ∀ statement ∈ jumpRule policy expr action direction,
      script.Declares statement := by
  intro statement member
  rw [jumpRule, List.mem_append, List.mem_append, List.mem_singleton] at member
  rcases member with (rfl | replicated) | rest
  · trivial
  · split at replicated
    · cases replicated
    · rw [List.mem_singleton.mp replicated]
      trivial
  · simp only [List.mem_cons, List.not_mem_nil, or_false] at rest
    rcases rest with rfl | rfl | rfl
    · trivial
    · exact declared
    · trivial

section Script

variable {sets : List (String × List String)}
  {counterSeed countrySeed : List (String × (Nat × Nat))} {script : Script}

theorem renderFull_eq
    (rendered : renderFull model found hookAt sets counterSeed countrySeed =
      some script) :
    script.counters.map Prod.fst =
        (counterActions model found hookAt).map counterName ++
          (countryCounters model found hookAt).map countryCounterName ∧
      script.sets = sets ∧
      script.chains = actionChains model found hookAt ++
        hookChains model found hookAt := by
  rw [renderFull] at rendered
  split at rendered
  · cases rendered
  · cases rendered
    simp [Function.comp_def]

theorem renderFull_eq_none :
    renderFull model found hookAt sets counterSeed countrySeed = none ↔
      jumps model found hookAt = [] := by
  rw [renderFull, ← List.isEmpty_iff]
  split <;> simp_all

theorem mem_counterActions {name : String} :
    name ∈ counterActions model found hookAt ↔
      ∃ direction, (name, direction) ∈ usedPairs model found hookAt := by
  simp [counterActions]

theorem mem_actionChains {chain : ChainDecl} :
    chain ∈ actionChains model found hookAt ↔
      ∃ name direction action,
        (name, direction) ∈ usedPairs model found hookAt ∧
        model.actions.lookup name = some action ∧
        chain = ⟨chainName name direction, none,
          actionChainRules name action direction⟩ := by
  rw [actionChains, List.mem_filterMap]
  constructor
  · rintro ⟨⟨name, direction⟩, used, made⟩
    obtain ⟨action, configured, rfl⟩ := Option.map_eq_some_iff.mp made
    exact ⟨name, direction, action, used, configured, rfl⟩
  · rintro ⟨name, direction, action, used, configured, rfl⟩
    exact ⟨(name, direction), used, by rw [configured]; rfl⟩

theorem mem_hookChains {chain : ChainDecl}
    (member : chain ∈ hookChains model found hookAt) :
    ∃ entry ∈ hooks, chain = ⟨entry.1, some entry.2,
      ((jumps model found hookAt).filter fun jump =>
        jump.hook = entry.1).map Jump.rule⟩ := by
  obtain ⟨entry, inside, made⟩ := List.mem_filterMap.mp member
  obtain ⟨_, same⟩ := Option.ite_none_left_eq_some.mp made
  cases same
  exact ⟨entry, inside, rfl⟩

theorem chainName_mem (rendered : renderFull model found hookAt sets counterSeed
      countrySeed = some script) {name direction : String}
    (used : (name, direction) ∈ usedPairs model found hookAt) :
    chainName name direction ∈ script.chains.map ChainDecl.name := by
  obtain ⟨_, action, configured, _⟩ := used_of_mem_usedPairs used
  rw [(renderFull_eq rendered).2.2, List.map_append, List.mem_append]
  exact .inl (List.mem_map.mpr ⟨_, mem_actionChains.mpr
    ⟨name, direction, action, used, configured, rfl⟩, rfl⟩)

theorem actionDeclared (loaded : sets.map Prod.fst = requiredSets model)
    (rendered : renderFull model found hookAt sets counterSeed countrySeed =
      some script) {name direction : String} {action : Action}
    (used : (name, direction) ∈ usedPairs model found hookAt)
    (configured : model.actions.lookup name = some action) :
    ActionDeclared script name action := by
  obtain ⟨counters, declared, _⟩ := renderFull_eq rendered
  obtain ⟨_, _, _, inUse⟩ := used_of_mem_usedPairs used
  have counted : name ∈ counterActions model found hookAt :=
    mem_counterActions.mpr ⟨direction, used⟩
  constructor
  · intro cc listed family
    rw [declared, loaded, mem_requiredSets]
    exact .inl ⟨cc, country_mem_inUse inUse configured listed, family, rfl⟩
  · intro needs family
    rw [declared, loaded, mem_requiredSets]
    exact .inr ⟨needKnown_of_used inUse configured needs, family, rfl⟩
  · rw [counters, List.mem_append]
    exact .inl (List.mem_map_of_mem counted)
  · intro blocks cc listed
    rw [counters, List.mem_append]
    refine .inr (List.mem_map_of_mem ?_)
    rw [Action.codes, mem_orderedTexts] at listed
    rw [countryCounters, mem_orderedTexts, List.mem_flatMap]
    exact ⟨action, List.mem_filter.mpr
      ⟨List.mem_filterMap.mpr ⟨name, counted, configured⟩,
        decide_eq_true blocks⟩, listed⟩

theorem closed_of_renderFull (loaded : sets.map Prod.fst = requiredSets model)
    (rendered : renderFull model found hookAt sets counterSeed countrySeed =
      some script) : script.Closed := by
  intro chain member
  rw [(renderFull_eq rendered).2.2, List.mem_append] at member
  rcases member with ofAction | ofHook
  · obtain ⟨name, direction, action, used, configured, rfl⟩ :=
      mem_actionChains.mp ofAction
    exact declares_actionChainRules
      (actionDeclared loaded rendered used configured) direction
  · obtain ⟨entry, _, rfl⟩ := mem_hookChains ofHook
    intro rule inside
    obtain ⟨jump, member, rfl⟩ := List.mem_map.mp inside
    have inJumps := (List.mem_filter.mp member).1
    have used := mem_usedPairs.mpr ⟨jump, inJumps, rfl, rfl⟩
    obtain ⟨_, _, expr, name, _, _, _, direction, _, rfl⟩ :=
      mem_jumps.mp inJumps
    exact declares_jumpRule (chainName_mem rendered used)

/-! ## Nothing is declared twice -/

structure Script.Distinct (script : Script) : Prop where
  counters : (script.counters.map Prod.fst).Nodup
  sets : (script.sets.map Prod.fst).Nodup
  chains : (script.chains.map ChainDecl.name).Nodup

/-- Different countries, families and actions have different names. -/
structure NamesApart (model : Model) : Prop where
  sets : ∀ cc ∈ known :: (inUse model).countries,
    ∀ other ∈ known :: (inUse model).countries, ∀ family family',
      setName cc family = setName other family' → cc = other ∧ family = family'
  countries : ∀ cc ∈ (inUse model).countries,
    ∀ other ∈ (inUse model).countries,
      countryCounterName cc = countryCounterName other → cc = other
  actions : ∀ name other, counterName name = counterName other → name = other
  counters : ∀ name cc, counterName name ≠ countryCounterName cc
  chains : ∀ policy ∈ model.policies, ∀ other ∈ model.policies,
    ∀ direction ∈ directionsOf policy, ∀ way ∈ directionsOf other,
    ∀ name name', chainName name direction = chainName name' way →
      name = name' ∧ direction = way

theorem country_of_inUse (validated : Validated model) {cc : String}
    (listed : cc ∈ (inUse model).countries) :
    ∃ own, ccOk own = true ∧ cc = own.toUpper := by
  simp only [inUse, mem_orderedTexts, List.mem_flatMap] at listed
  obtain ⟨action, used, member⟩ := listed
  obtain ⟨name, _, configured⟩ := List.mem_filterMap.mp used
  obtain ⟨own, written, rfl⟩ := List.mem_map.mp member
  exact ⟨own, validated.country configured own written, rfl⟩

theorem namesApart (validated : Validated model) : NamesApart model where
  sets := by
    intro cc inside other inside' family family' same
    obtain ⟨lower, families⟩ := setName_injective same
    refine ⟨?_, families⟩
    rcases List.mem_cons.mp inside with rfl | listed <;>
      rcases List.mem_cons.mp inside' with rfl | listed'
    · rfl
    · obtain ⟨own, accepted, rfl⟩ := country_of_inUse validated listed'
      exact absurd lower.symm (toLower_ne_known accepted)
    · obtain ⟨own, accepted, rfl⟩ := country_of_inUse validated listed
      exact absurd lower (toLower_ne_known accepted)
    · obtain ⟨own, _, rfl⟩ := country_of_inUse validated listed
      obtain ⟨own', _, rfl⟩ := country_of_inUse validated listed'
      exact toLower_injective_upper lower
  countries := by
    intro cc listed other listed' same
    obtain ⟨own, _, rfl⟩ := country_of_inUse validated listed
    obtain ⟨own', _, rfl⟩ := country_of_inUse validated listed'
    exact toLower_injective_upper (countryCounterName_injective same)
  actions := fun _ _ => counterName_injective
  counters := counterName_ne_countryCounterName
  chains := fun _ _ _ _ _ inside _ inside' _ _ =>
    chainName_injective (directionsOf_known inside) (directionsOf_known inside')

theorem countryCounters_subset {cc : String}
    (listed : cc ∈ countryCounters model found hookAt) :
    cc ∈ (inUse model).countries := by
  rw [countryCounters, mem_orderedTexts, List.mem_flatMap] at listed
  obtain ⟨action, member, listed⟩ := listed
  obtain ⟨name, counted, configured⟩ :=
    List.mem_filterMap.mp (List.mem_filter.mp member).1
  obtain ⟨direction, used⟩ := mem_counterActions.mp counted
  obtain ⟨_, _, _, inUse⟩ := used_of_mem_usedPairs used
  exact country_mem_inUse inUse configured (mem_orderedTexts.mpr listed)

theorem actionChains_names :
    (actionChains model found hookAt).map ChainDecl.name =
      (usedPairs model found hookAt).map fun pair =>
        chainName pair.1 pair.2 := by
  rw [actionChains, List.map_filterMap, ← List.filterMap_eq_map]
  refine List.filterMap_congr fun pair used => ?_
  obtain ⟨_, action, configured, _⟩ := used_of_mem_usedPairs used
  simp [configured]

theorem filterMap_sublist_map {Item Image : Type} {items : List Item}
    {choose : Item → Option Image} {image : Item → Image}
    (each : ∀ item made, choose item = some made → made = image item) :
    (items.filterMap choose).Sublist (items.map image) := by
  induction items with
  | nil => exact .slnil
  | cons item items ih =>
      rw [List.map_cons]
      cases chosen : choose item with
      | none =>
          rw [List.filterMap_cons_none chosen]
          exact ih.cons _
      | some made =>
          rw [List.filterMap_cons_some chosen, each item made chosen]
          exact ih.cons_cons _

theorem chainName_notMem_hooks (name direction : String) :
    chainName name direction ∉ hooks.map Prod.fst := by
  intro member
  simp only [hooks, List.map_cons, List.map_nil, List.mem_cons,
    List.not_mem_nil, or_false] at member
  rcases member with same | same | same <;>
    simpa [chainName, String.toList_append] using congrArg String.toList same

theorem hookChains_names :
    ((hookChains model found hookAt).map ChainDecl.name).Sublist
      (hooks.map Prod.fst) := by
  rw [hookChains, List.map_filterMap]
  refine filterMap_sublist_map fun entry name made => ?_
  obtain ⟨chain, chosen, rfl⟩ := Option.map_eq_some_iff.mp made
  obtain ⟨_, same⟩ := Option.ite_none_left_eq_some.mp chosen
  cases same
  rfl

theorem chains_nodup
    (rendered : renderFull model found hookAt sets counterSeed countrySeed =
      some script) : (script.chains.map ChainDecl.name).Nodup := by
  rw [(renderFull_eq rendered).2.2, List.map_append, actionChains_names]
  refine List.nodup_append.mpr ⟨?_, hookChains_names.nodup (by decide), ?_⟩
  · refine (nodup_ordered _).map_on ?_
    rintro ⟨name, direction⟩ used ⟨other, way⟩ used' same
    obtain ⟨rfl, rfl⟩ := chainName_injective
      (used_of_mem_usedPairs used).1 (used_of_mem_usedPairs used').1 same
    rfl
  · intro name member other member' same
    obtain ⟨pair, _, rfl⟩ := List.mem_map.mp member
    have base := hookChains_names.subset member'
    rw [← same] at base
    exact chainName_notMem_hooks _ _ base

theorem distinct_of_renderFull (validated : Validated model)
    (loaded : sets.map Prod.fst = requiredSets model)
    (rendered : renderFull model found hookAt sets counterSeed countrySeed =
      some script) : script.Distinct := by
  obtain ⟨counters, declared, _⟩ := renderFull_eq rendered
  constructor
  · rw [counters]
    refine List.nodup_append.mpr ⟨?_, ?_, ?_⟩
    · exact (nodup_ordered _).map fun _ _ => counterName_injective
    · refine (nodup_ordered _).map_on fun cc listed other listed' same => ?_
      exact (namesApart validated).countries cc
        (countryCounters_subset listed) other
        (countryCounters_subset listed') same
    · intro name member other member' same
      obtain ⟨action, _, rfl⟩ := List.mem_map.mp member
      obtain ⟨cc, _, rfl⟩ := List.mem_map.mp member'
      exact counterName_ne_countryCounterName action cc same
  · rw [declared, loaded]
    exact nodup_ordered _
  · exact chains_nodup rendered

/-- Everything a rule of the script names is declared in it, nothing is
declared twice, and what is declared for different countries, families or
actions has different names; besides countries, only the whole database has
sets. -/
theorem renderFull_closed {codes : Option (List String)}
    (valid : validate model codes = [])
    (loaded : sets.map Prod.fst = requiredSets model)
    (rendered : renderFull model found hookAt sets counterSeed countrySeed =
      some script) :
    script.Closed ∧ script.Distinct ∧ NamesApart model ∧
      ∀ sname ∈ script.sets.map Prod.fst,
        ∃ cc ∈ known :: (inUse model).countries, ∃ family,
          sname = setName cc family := by
  have validated := validated_of_validate valid
  refine ⟨closed_of_renderFull loaded rendered,
    distinct_of_renderFull validated loaded rendered, namesApart validated, ?_⟩
  intro sname member
  rw [(renderFull_eq rendered).2.1, loaded, mem_requiredSets] at member
  rcases member with ⟨cc, listed, family, rfl⟩ | ⟨_, family, rfl⟩
  · exact ⟨cc, List.mem_cons_of_mem _ listed, family, rfl⟩
  · exact ⟨known, List.mem_cons_self, family, rfl⟩

end Script

end Rendered

section Examples

/-- A country and unknown addresses are blocked, at both ends. -/
def siteModel : Model :=
  ⟨[("Geo", ⟨none, some "block-listed", ["CN"], "block", true⟩)],
    [⟨10, some "Geo", some "forward", 20, "both", true⟩]⟩

def siteSets : List (String × List String) :=
  (requiredSets siteModel).map fun sname => (sname, [])

theorem siteModel_rendered :
    ∃ script, renderFull siteModel [(10, some [])] [] siteSets [] [] =
      some script := by
  rw [← Option.ne_none_iff_exists', ne_eq, renderFull_eq_none]
  refine List.ne_nil_of_mem (mem_jumps.mpr ⟨_, List.mem_cons_self, [], "Geo",
    _, "forward", ⟨rfl, rfl, rfl, rfl, rfl⟩, "source", by decide, rfl⟩)

theorem siteModel_closed :
    ∃ script, renderFull siteModel [(10, some [])] [] siteSets [] [] =
        some script ∧ script.Closed := by
  obtain ⟨script, rendered⟩ := siteModel_rendered
  have valid : validate siteModel none = [] := by decide
  have loaded : siteSets.map Prod.fst = requiredSets siteModel := by
    simp [siteSets, Function.comp_def]
  exact ⟨script, rendered, (renderFull_closed valid loaded rendered).1⟩

end Examples

end QuartzFire.Geolocation
