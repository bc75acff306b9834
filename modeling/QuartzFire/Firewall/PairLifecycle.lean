import QuartzFire.Firewall.Numbers

/-!
# The life of a zone pair

A pair is bound when its first rule is saved, and goes with its ruleset when
its last rule is moved away or deleted.  So long as zones are renamed and
deleted only without rules in their pairs, no ruleset is left behind.
-/

namespace QuartzFire.Firewall

open ConfigTree TransitionSystem

/-- Bound rulesets hold rules, rules are in bound rulesets, and replies are
matched globally where a pair is bound. -/
structure PairsAlive (locale : Locale) (root : Cfg) : Prop where
  used : ∀ pair ∈ (fetchFirewall locale root).zonePairs,
    ruleEntries root (.name pair.ruleset) ≠ []
  bound : ∀ ruleset, ruleEntries root (.name ruleset) ≠ [] →
    ∃ pair ∈ (fetchFirewall locale root).zonePairs, pair.ruleset = ruleset
  state : (fetchFirewall locale root).zonePairs ≠ [] →
    (fetchFirewall locale root).statePolicy = true

/-- An operation that saves or deletes a rule. -/
def Operation.IsEdit : Operation → Prop
  | .saveRule _ _ | .removeRule _ => True
  | _ => False

/-- The pairs that are gone after an operation are those all rules of which it
deletes. -/
def EmptiedPairsGo (locale : Locale) (root after : Cfg)
    (operation : Operation) : Prop :=
  ∀ pair ∈ (fetchFirewall locale root).zonePairs,
    pair ∉ (fetchFirewall locale after).zonePairs ↔
      ∀ number raw,
        subtree (ruleBase (.name pair.ruleset) number) root = some raw →
        operation.Vacates locale (fetchFirewall locale root)
          (.name pair.ruleset) number

/-- No rule has a copy in a ruleset of a pair of the zone. -/
def ZoneFree (cfg : FirewallConfig) (name : String) : Prop :=
  ∀ rule ∈ cfg.rules, ∀ scope ∈ rule.scopes, ∀ pair ∈ cfg.zonePairs,
    pair.src = name ∨ pair.dst = name → scope.chain ≠ .name pair.ruleset

/-- Rules of zone pairs are not named as hidden ones, no two pairs are bound to
one ruleset, and zones are renamed and deleted only without rules. -/
def Operation.Orderly (locale : Locale) (cfg : FirewallConfig) :
    Operation → Prop
  | .saveRule live update => ∀ place,
      placeRule locale live update cfg = .ok place → place.pairs ≠ [] →
      (∀ text, update.name.bind trimmed = some text →
        startsWith text sysMark = false) ∧
      ∀ pair ∈ place.pairs, ∀ other ∈ place.pairs,
        pair.ruleset = other.ruleset →
        (cfg.zonePairs.any fun bound => bound.ruleset = pair.ruleset) =
          false → pair = other
  | .saveZone update => ∀ name, update.moved = some name → ZoneFree cfg name
  | .removeZone zone => ZoneFree cfg zone.name
  | _ => True

instance (cfg : FirewallConfig) (name : String) :
    Decidable (ZoneFree cfg name) := by
  unfold ZoneFree
  infer_instance

instance (locale : Locale) (cfg : FirewallConfig) :
    (operation : Operation) → Decidable (operation.Orderly locale cfg)
  | .saveRule live update =>
      match placed : placeRule locale live update cfg with
      | .error _ => .isTrue (by simp [Operation.Orderly, placed])
      | .ok place =>
          have named : Decidable (∀ text, update.name.bind trimmed = some text →
              startsWith text sysMark = false) :=
            inferInstanceAs (Decidable (∀ text ∈ update.name.bind trimmed,
              startsWith text sysMark = false))
          decidable_of_iff (place.pairs ≠ [] →
            (∀ text, update.name.bind trimmed = some text →
              startsWith text sysMark = false) ∧
            ∀ pair ∈ place.pairs, ∀ other ∈ place.pairs,
              pair.ruleset = other.ruleset →
              (cfg.zonePairs.any fun bound => bound.ruleset = pair.ruleset) =
                false → pair = other) <| by
            simp [Operation.Orderly, placed]
  | .saveZone update =>
      decidable_of_iff (∀ name ∈ update.moved, ZoneFree cfg name) Iff.rfl
  | .removeZone zone => decidable_of_iff (ZoneFree cfg zone.name) Iff.rfl
  | .saveAlias _ | .removeAlias _ | .savePolicy _ | .removePolicy _
  | .removeRule _ | .inspect _ | .reorder _ | .changeDefault _
  | .enableLogging | .elsewhere _ => .isTrue trivial

theorem Operation.Orderly.zoneFree {locale : Locale} {cfg : FirewallConfig}
    {operation : Operation} (orderly : operation.Orderly locale cfg)
    {name : String} (drops : operation.DropsZone name) : ZoneFree cfg name := by
  cases operation with
  | saveZone update => exact orderly name drops
  | removeZone zone =>
      cases drops
      exact orderly
  | _ => cases drops

/-! ## What an operation does to a rule of a ruleset -/

section Touching

variable {locale : Locale} {cfg : FirewallConfig} {operation : Operation}
  {chunk : List VyosCommand} {ruleset key : String}

/-- What a command has to do with a config rule of a ruleset. -/
inductive RuleTouch (locale : Locale) (cfg : FirewallConfig)
    (operation : Operation) (ruleset key : String) (command : VyosCommand) :
    Prop where
  | apart : Diverges command.path (rulePath (.name ruleset) key) →
      RuleTouch locale cfg operation ruleset key command
  | body {leaf : String} {more : Path} :
      operation.Lands locale cfg (.name ruleset) key → leaf ≠ "description" →
      command.path = rulePath (.name ruleset) key ++ leaf :: more →
      RuleTouch locale cfg operation ruleset key command
  | name {live : Option FirewallRule} {update : RuleUpdate}
      {place : RulePlacement} {text : String} :
      operation = .saveRule live update →
      placeRule locale live update cfg = .ok place →
      .name ruleset ∈ place.chains → key = toString place.rule →
      update.name.bind trimmed = some text →
      command = .set (rulePath (.name ruleset) key ++ ["description", text]) →
      RuleTouch locale cfg operation ruleset key command
  | unname : operation.Lands locale cfg (.name ruleset) key →
      command = .delete (rulePath (.name ruleset) key ++ ["description"]) →
      RuleTouch locale cfg operation ruleset key command
  | vacates {number : Nat} :
      operation.Vacates locale cfg (.name ruleset) number →
      key = toString number →
      command = .delete (rulePath (.name ruleset) key) →
      RuleTouch locale cfg operation ruleset key command
  | empties {pair : ZonePair} : operation.Empties locale cfg pair →
      pair.ruleset = ruleset → command = .delete (filterBase (.name ruleset)) →
      RuleTouch locale cfg operation ruleset key command
  | dropsZone {pair : ZonePair} {name : String} : operation.DropsZone name →
      pair ∈ cfg.zonePairs → pair.src = name ∨ pair.dst = name →
      pair.ruleset = ruleset → command = .delete (filterBase (.name ruleset)) →
      RuleTouch locale cfg operation ruleset key command

theorem each_apart {commands : List VyosCommand}
    (spared : Spares (rulePath (.name ruleset) key) commands) :
    Each (RuleTouch locale cfg operation ruleset key) commands :=
  spared.imp fun _ => .apart

theorem Piece.touches_rule (piece : Piece locale cfg operation chunk)
    (settled : ∀ order, operation ≠ .reorder order) :
    Each (RuleTouch locale cfg operation ruleset key) chunk := by
  have beside : ∀ {head more}, head ≠ "ipv4" → Diverges
      ("firewall" :: head :: more) (rulePath (.name ruleset) key) :=
    fun other => diverges_beside other _
  have base : ∀ chain number more, Diverges
      (rulePath (.base chain) number ++ more) (rulePath (.name ruleset) key) :=
    fun _ _ _ => diverges_rule_append (by simp) _
  have flow : Spares (rulePath (.name ruleset) key)
      (ipsFlowRuleCommands (filterBase (.base .forward))) := by
    refine baselinePaths_ipsFlowRuleCommands.mono fun path written => ?_
    cases written with
    | @rule number more _ => simpa using base .forward number more
  have setting : ∀ chain head more, head ≠ "rule" → Diverges
      (filterBase chain ++ head :: more) (rulePath (.name ruleset) key) :=
    fun chain _ _ other => diverges_setting chain other _
  cases piece with
  | group path => exact .single (.apart (path ▸ beside (by decide)))
  | copy lands leaf path =>
      rename_i chain number _ more
      by_cases same : (chain, number) = (.name ruleset, key)
      · cases same
        exact .single (.body lands leaf path)
      · exact .single (.apart (path ▸ diverges_rule_append same _))
  | name saves placed member named =>
      rename_i place chain text
      by_cases same : (chain, toString place.rule) = (.name ruleset, key)
      · cases same
        exact .single (.name saves placed member rfl named rfl)
      · exact .single (.apart (diverges_rule_append same _))
  | unname saves placed member =>
      subst saves
      rename_i place chain
      by_cases same : (chain, toString place.rule) = (.name ruleset, key)
      · cases same
        exact .single (.unname ⟨place, placed, member, rfl⟩ rfl)
      · exact .single (.apart (diverges_rule_append same _))
  | rebuild same _ _ => exact absurd same (settled _)
  | drop vacates =>
      rename_i chain number
      by_cases same : (chain, toString number) = (.name ruleset, key)
      · cases same
        exact .single (.vacates vacates rfl rfl)
      · exact .single (.apart (diverges_rulePath same))
  | cleanup vacates found last =>
      rename_i chain number pair
      obtain ⟨rfl, _⟩ := chain_of_pair found
      refine .cons (.apart (beside (by decide))) (.single ?_)
      by_cases same : pair.ruleset = ruleset
      · exact .empties ⟨found, number, vacates, last⟩ same (same ▸ rfl)
      · refine .apart ?_
        have apart : RuleChain.name pair.ruleset ≠ .name ruleset := by
          simpa using same
        show Diverges (filterBase (.name pair.ruleset)) _
        simpa using (diverges_filterBase apart).append [] ["rule", key]
  | flow => exact each_apart flow
  | freshFlow =>
      have top := base .forward "1" []
      rw [List.append_nil] at top
      exact .cons (.apart top) (each_apart flow)
  | replies chain _ =>
      exact each_apart (.cons (base _ _ _) (.cons (base _ _ _)
        (.cons (base _ _ _) (.single (base _ _ _)))))
  | loopback chain =>
      exact each_apart (.cons (base _ "2" _) (.cons (base _ "2" _)
        (.single (base _ "2" _))))
  | bind _ =>
      exact .cons (.apart (setting _ _ _ (by decide)))
        (.single (.apart (beside (by decide))))
  | state =>
      exact each_apart (.ite (fun _ => .nil) fun _ =>
        .cons (beside (by decide)) (.single (beside (by decide))))
  | seed _ => exact .single (.apart (setting _ _ _ (by decide)))
  | logging _ => exact .single (.apart (setting _ _ _ (by decide)))
  | default _ => exact .single (.apart (setting _ _ _ (by decide)))
  | zone _ _ path => exact .single (.apart (path ▸ beside (by decide)))
  | zoneNode _ => exact .single (.apart (beside (by decide)))
  | dropZone _ => exact .single (.apart (beside (by decide)))
  | dropPair _ _ _ => exact .single (.apart (beside (by decide)))
  | dropRuleset same member part =>
      rename_i zone pair
      subst same
      by_cases same : pair.ruleset = ruleset
      · exact .single (.dropsZone rfl member part same (same ▸ rfl))
      · refine .single (.apart ?_)
        have apart : RuleChain.name pair.ruleset ≠ .name ruleset := by
          simpa using same
        show Diverges (filterBase (.name pair.ruleset)) _
        simpa using (diverges_filterBase apart).append [] ["rule", key]
  | elsewhere other path =>
      refine .single (.apart ?_)
      rw [path]
      exact diverges_cons.mpr fun same => absurd same other

end Touching

section Names

variable {schema : CommandSchema} {locale : Locale} {cfg : FirewallConfig}
  {operation : Operation} {command : VyosCommand} {ruleset key : String}

/-- A name that hides no rule. -/
def ShownName (leaf : Cfg) : Prop :=
  ∀ text, leaf = .value text →
    (trimmed text).any (startsWith · sysMark) = false

/-- The name of a rule of zone pairs stays, goes or hides no rule. -/
theorem RuleTouch.leaves_name (orderly : operation.Orderly locale cfg)
    (touch : RuleTouch locale cfg operation ruleset key command) :
    Leaves schema.kinds ShownName
      (rulePath (.name ruleset) key ++ ["description"]) [command] := by
  cases touch with
  | apart diverges =>
      have apart := diverges.append [] ["description"]
      rw [List.append_nil] at apart
      exact .ofSpares (.single apart)
  | body _ other path =>
      refine .ofSpares (.single ?_)
      rw [path]
      exact (diverges_append_left _).mpr
        (diverges_cons.mpr fun same => absurd same other)
  | @name live update place text saves placed member _ named same =>
      subst same saves
      have paired : place.pairs ≠ [] := by
        rcases placed_chains placed with ⟨paired, _⟩ | ⟨_, base, only⟩
        · exact paired
        · simp [only] at member
      have shown := (orderly place placed paired).1 text named
      refine @Leaves.last _ _ _ _ _ [] _ fun tree conforms found here => ?_
      have written := conforms.subtree_set_single
        (schema.ruleNode (.name ruleset) key)
        (by simpa using schema.ruleDescription (.name ruleset) key) text
      rw [execute, written] at here
      cases here
      rintro other ⟨⟩
      obtain ⟨raw, _, trims⟩ := Option.bind_eq_some_iff.mp named
      rw [trimmed_trimmed trims]
      simpa using shown
  | unname _ same =>
      subst same
      exact .delete (by simp) (List.prefix_refl _)
  | vacates _ _ same =>
      subst same
      exact .delete (by simp) (List.prefix_append _ _)
  | empties _ _ same | dropsZone _ _ _ _ same =>
      subst same
      refine .delete (by simp [filterBase]) ?_
      rw [List.append_assoc]
      exact List.prefix_append _ _

end Names

/-! ## The global state match -/

section State

/-- Where the action of a state of the global state match is. -/
def statePath (state : String) : Path :=
  ["firewall", "global-options", "state-policy", state, "action"]

theorem statePolicy_iff {locale : Locale} {root : Cfg} :
    (fetchFirewall locale root).statePolicy = true ↔
      ∀ state ∈ ["established", "related"],
        textAt (statePath state) root = some "accept" := by
  have read : ∀ state, childStr (childNode (childNode (childNode
      (fetchFirewallConfig root) "global-options") "state-policy") state)
      "action" = textAt (statePath state) root := by
    intro state
    rw [fetchFirewallConfig, childNode_eq_nodeAt root, childNode_nodeAt,
      childNode_nodeAt, childNode_nodeAt, childStr_nodeAt]
    rfl
  simp only [fetchFirewall, parseStatePolicy, read, Bool.and_eq_true,
    decide_eq_true_eq, List.forall_mem_cons, List.not_mem_nil, false_imp_iff,
    implies_true, and_true]

theorem quiet_statePath (locale : Locale) (cfg : FirewallConfig)
    (operation : Operation) (state : String) :
    Quiet locale cfg operation (statePath state) where
  inside := rfl
  group := by simp [statePath, diverges_cons]
  rule := by
    intro chain more
    cases chain <;> simp [statePath, filterBase, diverges_cons]
  ruleset := by simp [statePath, diverges_cons]
  seed := by simp [statePath, filterBase, diverges_cons]
  logging := by simp [statePath, filterBase, diverges_cons]
  default := by simp [statePath, filterBase, diverges_cons]
  zone := by simp [statePath, diverges_cons]

theorem set_of_state {cfg : FirewallConfig} {state : String}
    {command : VyosCommand} (member : command ∈ ensureStatePolicy cfg) :
    Diverges command.path (statePath state) ∨
      command = .set (statePath state ++ ["accept"]) := by
  rw [ensureStatePolicy] at member
  split at member
  · cases member
  · simp only [List.mem_cons, List.not_mem_nil, or_false] at member
    rcases member with rfl | rfl
    · by_cases same : "established" = state
      · subst same
        exact .inr rfl
      · exact .inl (by simp [statePath, diverges_cons, same, Command.path])
    · by_cases same : "related" = state
      · subst same
        exact .inr rfl
      · exact .inl (by simp [statePath, diverges_cons, same, Command.path])

end State

/-! ## The invariant -/

/-- What holds in every state of an orderly run. -/
structure PairsKept (device : Device) (locale : Locale) (root : Cfg) : Prop
    extends PairsAlive locale root where
  accepted : device.accepts root = true
  shown : ∀ ruleset key body,
    subtree (rulePath (.name ruleset) key) root = some body →
    isSystem body = false
  apart : ∀ pair ∈ (fetchFirewall locale root).zonePairs,
    ∀ other ∈ (fetchFirewall locale root).zonePairs,
      pair.ruleset = other.ruleset → pair = other
  named : ∀ pair ∈ (fetchFirewall locale root).zonePairs,
    pair.ruleset = pairRuleset pair.src pair.dst

theorem ruleEntries_ne_nil {kinds : Kinds String} {root : Cfg}
    (conforms : Conforms kinds root) {chain : RuleChain} :
    ruleEntries root chain ≠ [] ↔
      ∃ key, (subtree (rulePath chain key) root).isSome = true := by
  have proper : filterBase chain ++ ["rule"] ≠ [] := by simp
  have inside : ∀ key body, (key, body) ∈ ruleEntries root chain ↔
      subtree (rulePath chain key) root = some body := by
    intro key body
    rw [ruleEntries, mem_nodeAt_entries conforms proper]
    simp
  constructor
  · intro some
    obtain ⟨⟨key, body⟩, member⟩ := List.exists_mem_of_ne_nil _ some
    exact ⟨key, Option.isSome_iff_exists.mpr ⟨body, (inside key body).mp member⟩⟩
  · rintro ⟨key, present⟩
    obtain ⟨body, found⟩ := Option.isSome_iff_exists.mp present
    exact List.ne_nil_of_mem ((inside key body).mpr found)

section Kept

variable {device : Device} {locale : Locale} {root : Cfg}
  {operation : Operation} {commands : List VyosCommand} {ruleset : String}

namespace PairsKept

variable (kept : PairsKept device locale root)
include kept

theorem rendered : Rendered device.schema.toSchema root :=
  device.rendered root kept.accepted

theorem conforms : Conforms device.schema.kinds root :=
  kept.rendered.conforms

theorem bound_of_body {key : String} {body : Cfg}
    (found : subtree (rulePath (.name ruleset) key) root = some body) :
    ∃ pair ∈ (fetchFirewall locale root).zonePairs, pair.ruleset = ruleset := by
  refine kept.bound ruleset ((ruleEntries_ne_nil kept.conforms).mpr ⟨key, ?_⟩)
  rw [found]
  rfl

/-- A config rule of a ruleset is a rule the console shows. -/
theorem rule_of_body {key : String} {body : Cfg}
    (found : subtree (rulePath (.name ruleset) key) root = some body) :
    ∃ rule ∈ (fetchFirewall locale root).rules,
      .name ruleset ∈ rule.scopes.map RuleScope.chain ∧
        key = toString rule.rule := by
  have decimal := kept.rendered.decimal _ key body found
  have occupied : Occupied root (.name ruleset) (ruleNumber key) := by
    refine ⟨body, (mem_readChains_name locale).mpr (kept.bound_of_body found),
      ?_, kept.shown ruleset key body found⟩
    rw [ruleBase, ← decimal]
    exact found
  obtain ⟨rule, member, inScopes, same⟩ :=
    (occupied_iff kept.rendered locale).mp occupied
  exact ⟨rule, member, inScopes, same ▸ decimal⟩

omit kept in
theorem body_of_rule (rendered : Rendered device.schema.toSchema root)
    {rule : FirewallRule} (member : rule ∈ (fetchFirewall locale root).rules)
    (inScopes : .name ruleset ∈ rule.scopes.map RuleScope.chain) :
    (subtree (rulePath (.name ruleset) (toString rule.rule)) root).isSome =
      true := by
  obtain ⟨raw, _, found, _⟩ :=
    (occupied_iff rendered locale).mpr ⟨rule, member, inScopes, rfl⟩
  exact Option.isSome_iff_exists.mpr ⟨raw, found⟩

/-- A zone without rules has no pairs. -/
theorem unpaired {name : String}
    (free : ZoneFree (fetchFirewall locale root) name) {pair : ZonePair}
    (member : pair ∈ (fetchFirewall locale root).zonePairs) :
    pair.src ≠ name ∧ pair.dst ≠ name := by
  have unused : ¬ (pair.src = name ∨ pair.dst = name) := by
    intro part
    obtain ⟨key, present⟩ := (ruleEntries_ne_nil kept.conforms).mp
      (kept.used pair member)
    obtain ⟨body, found⟩ := Option.isSome_iff_exists.mp present
    obtain ⟨rule, inRules, inScopes, _⟩ := kept.rule_of_body found
    obtain ⟨scope, held, same⟩ := List.mem_map.mp inScopes
    exact free rule inRules scope held pair member part same
  exact not_or.mp unused

theorem pairForChain_eq {pair : ZonePair}
    (member : pair ∈ (fetchFirewall locale root).zonePairs) :
    pairForChain (fetchFirewall locale root).zonePairs (.name pair.ruleset) =
      some pair := by
  cases found : pairForChain (fetchFirewall locale root).zonePairs
      (.name pair.ruleset) with
  | none =>
      have none := List.find?_eq_none.mp
        ((Option.bind_some _ _).symm.trans found) pair member
      simp at none
  | some other =>
      obtain ⟨same, inPairs⟩ := chain_of_pair found
      rw [RuleChain.name.injEq] at same
      rw [kept.apart pair member other inPairs same]

/-- A pair that is bound has one ruleset. -/
theorem pair_unique {pair other : ZonePair}
    (member : pair ∈ (fetchFirewall locale root).zonePairs)
    (within : other ∈ (fetchFirewall locale root).zonePairs)
    (src : pair.src = other.src) (dst : pair.dst = other.dst) :
    pair = other := by
  refine kept.apart pair member other within ?_
  rw [kept.named pair member, kept.named other within, src, dst]

/-- A pair that an operation binds was not bound. -/
theorem not_bound_of_binds {pair : ZonePair}
    (member : pair ∈ (fetchFirewall locale root).zonePairs) :
    ¬ operation.Binds locale (fetchFirewall locale root)
      ⟨pair.src, pair.dst, pairRuleset pair.src pair.dst⟩ := by
  intro binds
  cases operation with
  | saveRule live update =>
      obtain ⟨_, _, _, unbound⟩ := binds
      have bound : ((fetchFirewall locale root).zonePairs.any fun bound =>
          bound.ruleset = pairRuleset pair.src pair.dst) = true :=
        List.any_eq_true.mpr
          ⟨pair, member, decide_eq_true (kept.named pair member)⟩
      rw [bound] at unbound
      cases unbound
  | _ => cases binds

end PairsKept

end Kept

/-! ## Steps -/

section Clearing

variable {locale : Locale} {cfg : FirewallConfig} {operation : Operation}
  {commands : List VyosCommand} {chain : RuleChain} {number : Nat}

/-- An edit deletes the rules it vacates, each with its pair if it is the last
one. -/
theorem mem_clears (edits : operation.IsEdit)
    (made : operation.commands locale cfg = .ok commands)
    (vacates : operation.Vacates locale cfg chain number)
    {command : VyosCommand}
    (member : command ∈ .delete (ruleBase chain number) ::
      emptyPairCleanup cfg chain [number]) : command ∈ commands := by
  cases operation with
  | saveRule live update =>
      cases live with
      | none => cases vacates
      | some live =>
          obtain ⟨place, placed, inScopes, which⟩ := vacates
          obtain ⟨parts, rfl⟩ := diffRule_parts made
          have same : parts.place = place := by
            have twice := parts.placed
            rw [placed] at twice
            cases twice
            rfl
          refine List.mem_append_left _ ?_
          rw [same, diffScopes]
          rcases which with ⟨moved, rfl⟩ | ⟨stays, dropped, rfl⟩
          · refine List.mem_append_left _ (List.mem_append_left _ ?_)
            rw [if_pos moved, Option.map_some, Option.getD_some, vacateRule]
            obtain ⟨scope, held, rfl⟩ := List.mem_map.mp inScopes
            exact List.mem_append_left _
              (List.mem_flatMap.mpr ⟨scope, held, member⟩)
          · refine List.mem_append_left _ (List.mem_append_right _ ?_)
            rw [if_neg (by simp [stays]), Option.map_some, Option.getD_some]
            refine List.mem_flatMap.mpr ⟨chain, inScopes, ?_⟩
            rw [if_neg dropped]
            exact member
  | removeRule rule =>
      obtain ⟨inScopes, rfl⟩ := vacates
      cases made
      obtain ⟨scope, held, rfl⟩ := List.mem_map.mp inScopes
      refine List.mem_append_left _ (List.mem_append_left _ ?_)
      exact List.mem_flatMap.mpr ⟨scope, held, by simpa using member⟩
  | _ => cases edits

/-- An edit deletes the binding and the ruleset of a pair it empties. -/
theorem mem_emptied (edits : operation.IsEdit)
    (made : operation.commands locale cfg = .ok commands) {pair : ZonePair}
    (empties : operation.Empties locale cfg pair) :
    .delete (bindingPath pair.src pair.dst) ∈ commands ∧
      .delete (filterBase (.name pair.ruleset)) ∈ commands := by
  obtain ⟨found, number, vacates, last⟩ := empties
  have cleanup : emptyPairCleanup cfg (.name pair.ruleset) [number] =
      [.delete (bindingPath pair.src pair.dst),
        .delete (filterBase (.name pair.ruleset))] := by
    rw [emptyPairCleanup, found]
    dsimp only
    rw [if_neg]
    · rfl
    · intro other
      obtain ⟨rule, member, both⟩ := List.any_eq_true.mp other
      simp only [List.mem_singleton, Bool.and_eq_true, decide_eq_true_eq,
        List.any_eq_true] at both
      obtain ⟨differs, scope, held, same⟩ := both
      exact differs (last rule member (List.mem_map.mpr ⟨scope, held, same⟩))
  constructor
  · exact mem_clears edits made vacates (by simp [cleanup])
  · exact mem_clears edits made vacates (by simp [cleanup])

/-- An operation vacates one number of a scope at most, unless it reorders. -/
theorem vacates_unique (settled : ∀ order, operation ≠ .reorder order)
    {other : Nat} (first : operation.Vacates locale cfg chain number)
    (second : operation.Vacates locale cfg chain other) : number = other := by
  cases operation with
  | saveRule live update =>
      cases live with
      | none => cases first
      | some live =>
          obtain ⟨place, placed, _, which⟩ := first
          obtain ⟨again, same, _, also⟩ := second
          rw [placed] at same
          cases same
          rcases which with ⟨moved, rfl⟩ | ⟨stays, _, rfl⟩
          · rcases also with ⟨_, rfl⟩ | ⟨stays, _, _⟩
            · rfl
            · rw [moved] at stays
              cases stays
          · rcases also with ⟨moved, _⟩ | ⟨_, _, rfl⟩
            · rw [moved] at stays
              cases stays
            · rfl
  | removeRule rule => exact first.2.trans second.2.symm
  | reorder order => exact absurd rfl (settled order)
  | _ => cases first

theorem edit_of_vacates {cfg : FirewallConfig}
    (settled : ∀ order, operation ≠ .reorder order) {chain : RuleChain}
    {number : Nat} (vacates : operation.Vacates locale cfg chain number) :
    operation.IsEdit := by
  cases operation with
  | saveRule _ _ | removeRule _ => trivial
  | reorder order => exact absurd rfl (settled order)
  | _ => cases vacates

end Clearing

section Saving

variable {locale : Locale} {cfg : FirewallConfig} {live : Option FirewallRule}
  {update : RuleUpdate} {place : RulePlacement} {commands : List VyosCommand}

theorem place_unique {parts : SaveParts locale live update cfg}
    (placed : placeRule locale live update cfg = .ok place) :
    parts.place = place := by
  have same := parts.placed
  rw [placed] at same
  cases same
  rfl

/-- A rule of zone pairs comes with the bindings and the global state match. -/
theorem mem_seeds (saved : diffRule locale live update cfg = .ok commands)
    (placed : placeRule locale live update cfg = .ok place)
    (paired : place.pairs ≠ []) {command : VyosCommand}
    (member : command ∈ ensureStatePolicy cfg ++
      place.pairs.flatMap (ensureZonePair cfg)) : command ∈ commands := by
  obtain ⟨parts, rfl⟩ := diffRule_parts saved
  rw [← place_unique placed] at member paired
  refine List.mem_append_left _ ?_
  rw [diffScopes]
  exact List.mem_append_right _ (by rwa [if_pos paired])

/-- A rule is given its action in every scope it is not in yet. -/
theorem mem_action (saved : diffRule locale live update cfg = .ok commands)
    (placed : placeRule locale live update cfg = .ok place)
    {chain : RuleChain} (lands : chain ∈ place.chains) :
    (∃ rule, live = some rule ∧ place.moved = false ∧
        chain ∈ rule.scopes.map RuleScope.chain) ∨
      ∃ text, .set (ruleBase chain place.rule ++ ["action", text]) ∈
        commands := by
  obtain ⟨parts, rfl⟩ := diffRule_parts saved
  have same : parts.place = place := place_unique placed
  subst same
  let live' := if parts.place.moved then none else live
  let text := if update.wantIps then "queue" else update.action.text
  by_cases holds : some text = (bodyAt live' chain).bind wireAction
  · obtain ⟨rule, held, _⟩ := Option.bind_eq_some_iff.mp holds.symm
    obtain ⟨known, inScopes⟩ := Option.filter_eq_some_iff.mp held
    left
    by_cases moved : parts.place.moved = true
    · simp [live', moved] at known
    · refine ⟨rule, ?_, Bool.not_eq_true _ ▸ moved, of_decide_eq_true inScopes⟩
      simpa [live', moved] using known
  · refine .inr ⟨text, ?_⟩
    refine List.mem_append_right _ (List.mem_append_left _ ?_)
    refine List.mem_append_left _ (List.mem_flatMap.mpr ⟨chain, lands, ?_⟩)
    rw [if_neg holds]
    exact List.mem_singleton.mpr (by simp [text])

end Saving

section Steps

variable {device : Device} {locale : Locale} {root : Cfg}
  {operation : Operation} {commands : List VyosCommand} {ruleset key : String}

/-- One orderly step from a state where the pairs are kept. -/
structure OrderlyStep (device : Device) (locale : Locale) (root : Cfg)
    (operation : Operation) (commands : List VyosCommand) : Prop where
  kept : PairsKept device locale root
  offered : operation.Offered (fetchFirewall locale root)
  orderly : operation.Orderly locale (fetchFirewall locale root)
  made : operation.commands locale (fetchFirewall locale root) = .ok commands
  taken : device.accepts
    (executeAll device.schema.kinds commands root) = true

namespace OrderlyStep

variable (step : OrderlyStep device locale root operation commands)
include step

theorem composed : Composed
    (Piece locale (fetchFirewall locale root) operation) commands :=
  composed_commands step.offered step.made

theorem unpaired {name : String} (drops : operation.DropsZone name)
    {pair : ZonePair}
    (member : pair ∈ (fetchFirewall locale root).zonePairs) :
    pair.src ≠ name ∧ pair.dst ≠ name :=
  step.kept.unpaired (step.orderly.zoneFree drops) member

theorem touched_rule (settled : ∀ order, operation ≠ .reorder order)
    (ruleset key : String) :
    Each (RuleTouch locale (fetchFirewall locale root) operation ruleset key)
      commands :=
  step.composed.each fun _ piece => piece.touches_rule settled

theorem touched_binding (src dst : String) :
    Each (BindingTouch locale (fetchFirewall locale root) operation src dst)
      commands :=
  step.composed.each fun _ piece => piece.touches_binding

theorem wanes_rule (settled : ∀ order, operation ≠ .reorder order)
    (apart : ¬ operation.Lands locale (fetchFirewall locale root)
      (.name ruleset) key) :
    Wanes (rulePath (.name ruleset) key) commands := by
  refine (step.touched_rule settled ruleset key).imp fun command touch => ?_
  cases touch with
  | apart diverges => exact .inl diverges
  | body lands _ _ => exact absurd lands apart
  | name saves placed member same _ _ =>
      subst saves
      exact absurd ⟨_, placed, member, same⟩ apart
  | unname lands _ => exact absurd lands apart
  | vacates _ _ same => exact .inr ⟨_, same⟩
  | empties _ _ same => exact .inr ⟨_, same⟩
  | dropsZone _ _ _ _ same => exact .inr ⟨_, same⟩

theorem stays_rule (settled : ∀ order, operation ≠ .reorder order)
    (stays : ∀ number, operation.Vacates locale (fetchFirewall locale root)
      (.name ruleset) number → key ≠ toString number)
    (filled : ∀ pair, operation.Empties locale (fetchFirewall locale root)
      pair → pair.ruleset ≠ ruleset) :
    Stays (rulePath (.name ruleset) key) commands := by
  refine (step.touched_rule settled ruleset key).imp fun command touch => ?_
  cases touch with
  | apart diverges => exact .inl diverges
  | body _ _ path => exact .inr ⟨_, List.cons_ne_nil _ _, path⟩
  | name _ _ _ _ _ same =>
      subst same
      exact .inr ⟨_, List.cons_ne_nil _ _, rfl⟩
  | unname _ same =>
      subst same
      exact .inr ⟨_, List.cons_ne_nil _ _, rfl⟩
  | vacates vacates same _ => exact absurd same (stays _ vacates)
  | empties empties same _ => exact absurd same (filled _ empties)
  | dropsZone drops member part _ _ =>
      exact absurd part (not_or.mpr (step.unpaired drops member))

/-- A pair that an operation does not empty stays bound. -/
theorem stays_bound {pair : ZonePair}
    (member : pair ∈ (fetchFirewall locale root).zonePairs)
    (filled : ¬ operation.Empties locale (fetchFirewall locale root) pair) :
    pair ∈ (fetchFirewall locale
      (executeAll device.schema.kinds commands root)).zonePairs := by
  have conforms := step.kept.conforms
  have steady : Steady device.schema.kinds (rulesetPath pair.src pair.dst)
      commands := by
    refine .ofEach ((step.touched_binding pair.src pair.dst).imp
      fun command touch => ?_)
    cases touch with
    | apart diverges => exact .ofSpares (.single diverges)
    | binds binds _ =>
        exact absurd binds (step.kept.not_bound_of_binds member)
    | empties _ empties src dst =>
        have within := (chain_of_pair empties.1).2
        rw [step.kept.pair_unique within member src dst] at empties
        exact absurd empties filled
    | node _ same =>
        subst same
        have deeper := device.schema.binding pair.src pair.dst
        have node : NodePath device.schema.kinds (zoneBase pair.dst) :=
          ⟨deeper.1, deeper.2.1, deeper.2.2.1, trivial⟩
        exact .setNode node (List.cons_ne_nil "from" _) rfl
    | dropsZone _ _ _ drops part =>
        exact absurd part (not_or.mpr (step.unpaired drops member))
  rw [mem_zonePairs_iff conforms.executeAll,
    textAt_congr (steady root conforms), ← mem_zonePairs_iff conforms]
  exact member

/-- A pair that an edit empties is gone. -/
theorem gone_of_empties (edits : operation.IsEdit) {pair : ZonePair}
    (empties : operation.Empties locale (fetchFirewall locale root) pair) :
    pair ∉ (fetchFirewall locale
      (executeAll device.schema.kinds commands root)).zonePairs := by
  have within := (chain_of_pair empties.1).2
  have wanes : Wanes (rulesetPath pair.src pair.dst) commands := by
    refine (step.touched_binding pair.src pair.dst).imp fun command touch => ?_
    cases touch with
    | apart diverges => exact .inl diverges
    | binds binds _ =>
        exact absurd binds (step.kept.not_bound_of_binds within)
    | empties same _ _ _ => exact .inr ⟨_, same⟩
    | node saves _ =>
        subst saves
        cases edits
    | dropsZone same _ _ _ _ => exact .inr ⟨_, same⟩
  have none : subtree (rulesetPath pair.src pair.dst)
      (executeAll device.schema.kinds commands root) = none :=
    wanes.gone (by simp [bindingPath]) (List.prefix_append _ _)
      (mem_emptied edits step.made empties).1
  rw [mem_zonePairs_iff step.kept.conforms.executeAll, textAt, none]
  rintro ⟨⟩

/-- A rule is not deleted where it is written. -/
theorem not_vacates_of_lands (settled : ∀ order, operation ≠ .reorder order)
    (lands : operation.Lands locale (fetchFirewall locale root)
      (.name ruleset) key) {number : Nat} :
    ¬ operation.Vacates locale (fetchFirewall locale root) (.name ruleset)
      number := by
  intro vacates
  cases operation with
  | saveRule live update =>
      cases live with
      | none => cases vacates
      | some live =>
          obtain ⟨place, placed, inChains, _⟩ := lands
          obtain ⟨again, same, inScopes, which⟩ := vacates
          rw [placed] at same
          cases same
          rcases which with ⟨moved, _⟩ | ⟨_, dropped, _⟩
          · have paired : place.pairs ≠ [] := by
              rcases placed_chains placed with ⟨paired, _⟩ | ⟨_, base, only⟩
              · exact paired
              · simp [only] at inChains
            have member := step.offered.1
            have zone : live.isZone = true := by
              rcases shares_of_rule member (chain_mem_scopes member) inScopes
                with same | ⟨zone, _⟩
              · rw [FirewallRule.isZone, same]
                rfl
              · rw [FirewallRule.isZone, zone]
                rfl
            rw [placed_zone placed zone paired] at moved
            cases moved
          · exact dropped inChains
  | reorder order => exact settled order rfl
  | removeRule _ => cases lands
  | _ => cases vacates

theorem stays_of_lands (settled : ∀ order, operation ≠ .reorder order)
    (lands : operation.Lands locale (fetchFirewall locale root)
      (.name ruleset) key) :
    Stays (rulePath (.name ruleset) key) commands := by
  refine step.stays_rule settled ?_ ?_
  · intro number vacates
    exact absurd vacates (step.not_vacates_of_lands settled lands)
  · rintro pair ⟨_, number, vacates, _⟩ rfl
    exact step.not_vacates_of_lands settled lands vacates

/-- A rule is there where it is written. -/
theorem present_of_lands (settled : ∀ order, operation ≠ .reorder order)
    (lands : operation.Lands locale (fetchFirewall locale root)
      (.name ruleset) key) :
    (subtree (rulePath (.name ruleset) key)
      (executeAll device.schema.kinds commands root)).isSome = true := by
  have nodes := device.schema.ruleNode (.name ruleset) key
  have stays := step.stays_of_lands settled lands
  have conforms := step.kept.conforms
  have written : ∀ {rule : FirewallRule},
      rule ∈ (fetchFirewall locale root).rules →
      .name ruleset ∈ rule.scopes.map RuleScope.chain →
      key = toString rule.rule →
      (subtree (rulePath (.name ruleset) key)
        (executeAll device.schema.kinds commands root)).isSome = true := by
    rintro rule member inScopes rfl
    exact stays.present nodes conforms
      (PairsKept.body_of_rule step.kept.rendered member inScopes)
  cases operation with
  | saveRule live update =>
      obtain ⟨place, placed, inChains, rfl⟩ := lands
      rcases mem_action step.made placed inChains with
        ⟨rule, rfl, stays, inScopes⟩ | ⟨text, member⟩
      · obtain ⟨member, same, _⟩ := step.offered
        refine written member inScopes ?_
        rw [placed_rule placed, if_neg (by simp [stays]), same]
      · exact stays.created nodes conforms member
  | reorder order => exact absurd rfl (settled order)
  | savePolicy _ | inspect _ | enableLogging =>
      obtain ⟨rule, member, inScopes, same⟩ := lands
      exact written member inScopes same
  | _ => cases lands

omit step in
/-- A pair that is bound by a save is bound after it. -/
theorem bound_of_binds {live : Option FirewallRule} {update : RuleUpdate}
    (step : OrderlyStep device locale root (.saveRule live update) commands)
    {place : RulePlacement}
    (placed : placeRule locale live update (fetchFirewall locale root) =
      .ok place) {pair : ZonePair} (member : pair ∈ place.pairs)
    (unbound : ((fetchFirewall locale root).zonePairs.any fun bound =>
      bound.ruleset = pair.ruleset) = false) :
    pair ∈ (fetchFirewall locale
      (executeAll device.schema.kinds commands root)).zonePairs := by
  have conforms := step.kept.conforms
  have named := placed_ruleset placed member
  have inBatch : .set (rulesetPath pair.src pair.dst ++ [pair.ruleset]) ∈
      commands := by
    refine mem_seeds step.made placed (List.ne_nil_of_mem member) ?_
    refine List.mem_append_right _ (List.mem_flatMap.mpr ⟨pair, member, ?_⟩)
    rw [ensureZonePair, if_neg (by simp [unbound])]
    simp [bindingPath]
  have found : subtree (rulesetPath pair.src pair.dst)
      (executeAll device.schema.kinds commands root) =
      some (.value pair.ruleset) := by
    refine conforms.subtree_written (fun command inside => ?_)
      ⟨_, inBatch, fun apart => apart.2 (List.prefix_append _ _)⟩
    cases step.touched_binding pair.src pair.dst command inside with
    | apart diverges => exact .inl diverges
    | binds _ same =>
        refine .inr fun tree conforms => ?_
        subst same
        rw [named]
        simpa [rulesetPath, execute] using conforms.subtree_set_single
          (device.schema.binding pair.src pair.dst)
          (device.schema.bindingName pair.src pair.dst)
          (pairRuleset pair.src pair.dst)
    | @empties other _ empties src dst =>
        have within := (chain_of_pair empties.1).2
        have bound : ((fetchFirewall locale root).zonePairs.any fun bound =>
            bound.ruleset = pair.ruleset) = true := by
          refine List.any_eq_true.mpr ⟨other, within, decide_eq_true ?_⟩
          rw [step.kept.named other within, named, src, dst]
        rw [bound] at unbound
        cases unbound
    | node saves _ => cases saves
    | dropsZone _ _ _ drops _ => cases drops
  rw [mem_zonePairs_iff conforms.executeAll, textAt_of_value found]
  exact trimmed_ruleset step.kept.accepted step.offered placed member

/-- A pair that is bound afterwards was, or is one of a rule that is saved. -/
theorem bound_origin {pair : ZonePair}
    (member : pair ∈ (fetchFirewall locale
      (executeAll device.schema.kinds commands root)).zonePairs) :
    pair ∈ (fetchFirewall locale root).zonePairs ∨
      operation.Binds locale (fetchFirewall locale root) pair ∧
        pair.ruleset = pairRuleset pair.src pair.dst := by
  rcases bound_after step.kept.conforms step.composed member with before |
    ⟨binds, reads⟩
  · exact .inl before
  · have offered := step.offered
    cases operation with
    | saveRule live update =>
        obtain ⟨place, placed, inPairs, unbound⟩ := binds
        have trims := trimmed_ruleset step.kept.accepted offered placed inPairs
        have same := Option.some.inj (trims.symm.trans reads)
        obtain ⟨src, dst, ruleset⟩ := pair
        dsimp only at same inPairs unbound
        subst same
        exact .inr ⟨⟨place, placed, inPairs, unbound⟩, rfl⟩
    | _ => cases binds

/-- The rulesets an operation binds are written into. -/
theorem lands_of_binds {pair : ZonePair}
    (binds : operation.Binds locale (fetchFirewall locale root) pair) :
    ∃ key, operation.Lands locale (fetchFirewall locale root)
      (.name pair.ruleset) key := by
  cases operation with
  | saveRule live update =>
      obtain ⟨place, placed, inPairs, _⟩ := binds
      rcases placed_chains placed with ⟨_, chains⟩ | ⟨none, _⟩
      · exact ⟨_, place, placed, (chains _).mpr ⟨pair, inPairs, rfl⟩, rfl⟩
      · rw [none] at inPairs
        cases inPairs
  | _ => cases binds

/-- A pair that is not emptied keeps a rule. -/
theorem keeps_rule (settled : ∀ order, operation ≠ .reorder order)
    {pair : ZonePair}
    (member : pair ∈ (fetchFirewall locale root).zonePairs)
    (filled : ¬ operation.Empties locale (fetchFirewall locale root) pair) :
    ∃ key, (subtree (rulePath (.name pair.ruleset) key)
      (executeAll device.schema.kinds commands root)).isSome = true := by
  have others : ∀ other,
      operation.Empties locale (fetchFirewall locale root) other →
      other.ruleset ≠ pair.ruleset := by
    intro other empties same
    have within := (chain_of_pair empties.1).2
    rw [step.kept.apart other within pair member same] at empties
    exact filled empties
  have remains : ∀ {key}, (∀ number,
      operation.Vacates locale (fetchFirewall locale root)
        (.name pair.ruleset) number → key ≠ toString number) →
      (subtree (rulePath (.name pair.ruleset) key) root).isSome = true →
      (subtree (rulePath (.name pair.ruleset) key)
        (executeAll device.schema.kinds commands root)).isSome = true :=
    fun stays present => (step.stays_rule settled stays others).present
      (device.schema.ruleNode _ _) step.kept.conforms present
  by_cases vacated : ∃ number, operation.Vacates locale
      (fetchFirewall locale root) (.name pair.ruleset) number
  · obtain ⟨number, vacates⟩ := vacated
    -- Some rule of the ruleset has another number, or the pair were emptied.
    have another : ∃ rule ∈ (fetchFirewall locale root).rules,
        .name pair.ruleset ∈ rule.scopes.map RuleScope.chain ∧
          rule.rule ≠ number := by
      by_contra only
      refine filled ⟨step.kept.pairForChain_eq member, number, vacates, ?_⟩
      intro rule inRules inScopes
      by_contra different
      exact only ⟨rule, inRules, inScopes, different⟩
    obtain ⟨rule, inRules, inScopes, different⟩ := another
    refine ⟨toString rule.rule, remains ?_
      (PairsKept.body_of_rule step.kept.rendered inRules inScopes)⟩
    intro other also same
    exact different ((toString_injective same).trans
      (vacates_unique settled also vacates))
  · obtain ⟨key, present⟩ := (ruleEntries_ne_nil step.kept.conforms).mp
      (step.kept.used pair member)
    exact ⟨key, remains
      (fun number vacates => absurd ⟨number, vacates⟩ vacated) present⟩

/-- Bound rulesets hold rules afterwards. -/
theorem used_after (settled : ∀ order, operation ≠ .reorder order)
    {pair : ZonePair} (member : pair ∈ (fetchFirewall locale
      (executeAll device.schema.kinds commands root)).zonePairs) :
    ruleEntries (executeAll device.schema.kinds commands root)
      (.name pair.ruleset) ≠ [] := by
  rw [ruleEntries_ne_nil step.kept.conforms.executeAll]
  rcases step.bound_origin member with before | ⟨binds, _⟩
  · refine step.keeps_rule settled before fun empties => ?_
    have ⟨_, _, vacates, _⟩ := empties
    exact step.gone_of_empties (edit_of_vacates settled vacates) empties member
  · obtain ⟨key, lands⟩ := step.lands_of_binds binds
    exact ⟨key, step.present_of_lands settled lands⟩

/-- A ruleset that is bound before an operation writes into it, or that it
binds, is bound afterwards. -/
theorem bound_of_lands (settled : ∀ order, operation ≠ .reorder order)
    (lands : operation.Lands locale (fetchFirewall locale root)
      (.name ruleset) key) :
    ∃ pair ∈ (fetchFirewall locale
      (executeAll device.schema.kinds commands root)).zonePairs,
      pair.ruleset = ruleset := by
  have stays : ∀ pair ∈ (fetchFirewall locale root).zonePairs,
      pair.ruleset = ruleset → pair ∈ (fetchFirewall locale
        (executeAll device.schema.kinds commands root)).zonePairs := by
    rintro pair member rfl
    refine step.stays_bound member fun empties => ?_
    have ⟨_, _, vacates, _⟩ := empties
    exact step.not_vacates_of_lands settled lands vacates
  have written : ∀ rule ∈ (fetchFirewall locale root).rules,
      .name ruleset ∈ rule.scopes.map RuleScope.chain →
      ∃ pair ∈ (fetchFirewall locale
        (executeAll device.schema.kinds commands root)).zonePairs,
        pair.ruleset = ruleset := by
    intro rule member inScopes
    obtain ⟨scope, held, named⟩ := List.mem_map.mp inScopes
    obtain ⟨pair, within, same⟩ := bound_scope member held named
    exact ⟨pair, stays pair within same, same⟩
  cases operation with
  | saveRule live update =>
      obtain ⟨place, placed, inChains, _⟩ := lands
      rcases placed_chains placed with ⟨_, chains⟩ | ⟨_, base, only⟩
      · obtain ⟨pair, inPairs, same⟩ := (chains _).mp inChains
        cases same
        by_cases bound : ((fetchFirewall locale root).zonePairs.any
            fun bound => bound.ruleset = pair.ruleset) = true
        · obtain ⟨other, within, same⟩ := List.any_eq_true.mp bound
          have same := of_decide_eq_true same
          exact ⟨other, stays other within same, same⟩
        · exact ⟨pair, bound_of_binds step placed inPairs
            (Bool.not_eq_true _ ▸ bound), rfl⟩
      · simp [only] at inChains
  | reorder order => exact absurd rfl (settled order)
  | savePolicy _ | inspect _ | enableLogging =>
      obtain ⟨rule, member, inScopes, _⟩ := lands
      exact written rule member inScopes
  | _ => cases lands

/-- Rules are in bound rulesets afterwards. -/
theorem held_after (settled : ∀ order, operation ≠ .reorder order)
    (present : (subtree (rulePath (.name ruleset) key)
      (executeAll device.schema.kinds commands root)).isSome = true) :
    ∃ pair ∈ (fetchFirewall locale
      (executeAll device.schema.kinds commands root)).zonePairs,
      pair.ruleset = ruleset := by
  by_cases lands : operation.Lands locale (fetchFirewall locale root)
      (.name ruleset) key
  · exact step.bound_of_lands settled lands
  · have wanes := step.wanes_rule settled lands
    cases before : subtree (rulePath (.name ruleset) key) root with
    | none =>
        rw [wanes.absent before] at present
        cases present
    | some body =>
        obtain ⟨pair, member, rfl⟩ := step.kept.bound_of_body before
        refine ⟨pair, step.stays_bound member fun empties => ?_, rfl⟩
        have ⟨_, _, vacates, _⟩ := empties
        have edits := edit_of_vacates settled vacates
        rw [wanes.gone (by simp [filterBase]) (List.prefix_append _ _)
          (mem_emptied edits step.made empties).2] at present
        cases present

theorem statePolicy_kept
    (matched : (fetchFirewall locale root).statePolicy = true) :
    (fetchFirewall locale
      (executeAll device.schema.kinds commands root)).statePolicy = true := by
  rw [statePolicy_iff] at matched ⊢
  intro state member
  have none : ensureStatePolicy (fetchFirewall locale root) = [] :=
    if_pos (statePolicy_iff.mpr matched)
  have spared := (quiet_statePath locale _ operation state).commands
    step.composed (none ▸ .nil)
  rw [textAt_congr (spared.subtree_eq root)]
  exact matched state member

/-- With the first pair comes the global state match. -/
theorem statePolicy_set {pair : ZonePair}
    (binds : operation.Binds locale (fetchFirewall locale root) pair) :
    (fetchFirewall locale
      (executeAll device.schema.kinds commands root)).statePolicy = true := by
  by_cases matched : (fetchFirewall locale root).statePolicy = true
  · exact step.statePolicy_kept matched
  · rw [statePolicy_iff]
    intro state member
    have inBatch : .set (statePath state ++ ["accept"]) ∈ commands := by
      have made := step.made
      cases operation with
      | saveRule live update =>
          obtain ⟨place, placed, inPairs, _⟩ := binds
          refine mem_seeds made placed (List.ne_nil_of_mem inPairs)
            (List.mem_append_left _ ?_)
          rw [ensureStatePolicy, if_neg matched]
          simp only [List.mem_cons, List.not_mem_nil, or_false] at member
          rcases member with rfl | rfl <;> simp [statePath]
      | _ => cases binds
    have found : subtree (statePath state)
        (executeAll device.schema.kinds commands root) =
        some (.value "accept") := by
      refine step.kept.conforms.subtree_written (fun command inside => ?_)
        ⟨_, inBatch, fun apart => apart.2 (List.prefix_append _ _)⟩
      have touch := step.composed.each
        (fun _ piece => (quiet_statePath locale _ operation state).touches
          piece) command inside
      rcases touch with diverges | inState
      · exact .inl diverges
      · refine (set_of_state inState).imp id ?_
        rintro rfl tree conforms
        exact conforms.subtree_set_single (device.schema.stateNode state)
          (device.schema.stateAction state) "accept"
    rw [textAt_of_value found]
    decide

theorem state_after {pair : ZonePair} (member : pair ∈ (fetchFirewall locale
      (executeAll device.schema.kinds commands root)).zonePairs) :
    (fetchFirewall locale
      (executeAll device.schema.kinds commands root)).statePolicy = true := by
  rcases step.bound_origin member with before | ⟨binds, _⟩
  · exact step.statePolicy_kept
      (step.kept.state (List.ne_nil_of_mem before))
  · exact step.statePolicy_set binds

/-- No rule of a ruleset is hidden afterwards. -/
theorem shown_after (settled : ∀ order, operation ≠ .reorder order)
    {body : Cfg} (found : subtree (rulePath (.name ruleset) key)
      (executeAll device.schema.kinds commands root) = some body) :
    isSystem body = false := by
  have leaves : Leaves device.schema.kinds ShownName
      (rulePath (.name ruleset) key ++ ["description"]) commands :=
    .ofEach ((step.touched_rule settled ruleset key).imp
      fun _ touch => touch.leaves_name step.orderly)
  rw [isSystem_eq found]
  rcases leaves root step.kept.conforms with same | shown
  · rw [textAt_congr same]
    cases before : subtree (rulePath (.name ruleset) key) root with
    | none => rw [textAt, subtree_append, before]; rfl
    | some raw =>
        rw [← isSystem_eq before]
        exact step.kept.shown _ _ _ before
  · rw [textAt]
    split
    · exact shown _ ‹_› _ rfl
    · rfl

theorem named_after {pair : ZonePair} (member : pair ∈ (fetchFirewall locale
      (executeAll device.schema.kinds commands root)).zonePairs) :
    pair.ruleset = pairRuleset pair.src pair.dst := by
  rcases step.bound_origin member with before | ⟨_, named⟩
  · exact step.kept.named pair before
  · exact named

theorem unbound_of_binds {pair other : ZonePair}
    (binds : operation.Binds locale (fetchFirewall locale root) pair)
    (member : other ∈ (fetchFirewall locale root).zonePairs) :
    other.ruleset ≠ pair.ruleset := by
  intro same
  cases operation with
  | saveRule live update =>
      obtain ⟨_, _, _, unbound⟩ := binds
      rw [List.any_eq_false] at unbound
      exact unbound other member (decide_eq_true same)
  | _ => cases binds

theorem apart_after {pair other : ZonePair}
    (member : pair ∈ (fetchFirewall locale
      (executeAll device.schema.kinds commands root)).zonePairs)
    (within : other ∈ (fetchFirewall locale
      (executeAll device.schema.kinds commands root)).zonePairs)
    (same : pair.ruleset = other.ruleset) : pair = other := by
  rcases step.bound_origin member with before | ⟨binds, _⟩
  · rcases step.bound_origin within with also | ⟨binds, _⟩
    · exact step.kept.apart pair before other also same
    · exact absurd same (step.unbound_of_binds binds before)
  · rcases step.bound_origin within with before | ⟨also, _⟩
    · exact absurd same.symm (step.unbound_of_binds binds before)
    · have orderly := step.orderly
      cases operation with
      | saveRule live update =>
          obtain ⟨place, placed, inPairs, unbound⟩ := binds
          obtain ⟨_, again, inside, _⟩ := also
          rw [placed] at again
          cases again
          exact (orderly place placed (List.ne_nil_of_mem inPairs)).2 pair
            inPairs other inside same unbound
      | _ => cases binds

/-- An orderly step other than a reorder keeps the pairs. -/
theorem kept_after (settled : ∀ order, operation ≠ .reorder order) :
    PairsKept device locale (executeAll device.schema.kinds commands root) where
  accepted := step.taken
  used _ member := step.used_after settled member
  bound ruleset some := by
    obtain ⟨key, present⟩ :=
      (ruleEntries_ne_nil step.kept.conforms.executeAll).mp some
    exact step.held_after settled present
  state some := by
    obtain ⟨pair, member⟩ := List.exists_mem_of_ne_nil _ some
    exact step.state_after member
  shown _ _ _ found := step.shown_after settled found
  apart _ member _ within same := step.apart_after member within same
  named _ member := step.named_after member

/-- An edit removes the pairs whose last rule it deletes. -/
theorem emptied (edits : operation.IsEdit) :
    EmptiedPairsGo locale root (executeAll device.schema.kinds commands root)
      operation := by
  have settled : ∀ order, operation ≠ .reorder order := by
    rintro order rfl
    cases edits
  intro pair member
  constructor
  · intro gone number raw found
    have empties : operation.Empties locale (fetchFirewall locale root) pair :=
      by_contra fun filled => gone (step.stays_bound member filled)
    obtain ⟨_, only, vacates, last⟩ := empties
    obtain ⟨rule, inRules, inScopes, same⟩ := step.kept.rule_of_body found
    rw [toString_injective same, last rule inRules inScopes]
    exact vacates
  · intro all
    refine step.gone_of_empties edits ?_
    obtain ⟨key, present⟩ := (ruleEntries_ne_nil step.kept.conforms).mp
      (step.kept.used pair member)
    obtain ⟨body, found⟩ := Option.isSome_iff_exists.mp present
    obtain ⟨rule, inRules, inScopes, rfl⟩ := step.kept.rule_of_body found
    have vacates := all rule.rule body found
    refine ⟨step.kept.pairForChain_eq member, rule.rule, vacates, ?_⟩
    intro other inside within
    obtain ⟨raw, held⟩ := Option.isSome_iff_exists.mp
      (PairsKept.body_of_rule step.kept.rendered inside within)
    exact vacates_unique settled (all other.rule raw held) vacates

end OrderlyStep

end Steps

/-! ## Reordering -/

section Reordering

variable {device : Device} {locale : Locale} {root : Cfg}
  {order : List FirewallRule} {ruleset key : String}

namespace PairsKept

variable (kept : PairsKept device locale root)
  (permutation : order.Perm (fetchFirewall locale root).rules)
include kept permutation

theorem ordering :
    Ordering device.schema.toSchema locale root order :=
  ⟨kept.rendered, permutation⟩

/-- No body of a ruleset is hidden, so moved rules land on none. -/
theorem rebuilt {index : Nat} {rule : FirewallRule} {scope : RuleScope}
    (present : order[index]? = some rule)
    (moved : rule.rule ≠ orderNumber index) (inScopes : scope ∈ rule.scopes)
    (named : scope.chain = .name ruleset) :
    subtree (rulePath (.name ruleset) (toString (orderNumber index)))
      (executeAll device.schema.kinds (reorderCommands order) root) =
        some scope.raw := by
  have built := (kept.ordering permutation).subtree_rebuilt
    (fun key body found hidden => ?_) present moved inScopes
  · rw [named] at built
    exact built
  · rw [named] at found
    rw [kept.shown _ _ _ found] at hidden
    cases hidden

/-- A reorder changes no binding. -/
theorem zonePairs_reordered {pair : ZonePair} :
    pair ∈ (fetchFirewall locale (executeAll device.schema.kinds
        (reorderCommands order) root)).zonePairs ↔
      pair ∈ (fetchFirewall locale root).zonePairs := by
  have same : subtree (rulesetPath pair.src pair.dst)
      (executeAll device.schema.kinds (reorderCommands order) root) =
      subtree (rulesetPath pair.src pair.dst) root :=
    (kept.ordering permutation).subtree_apart
      fun chain _ key => diverges_filter_zone chain _
  rw [mem_zonePairs_iff kept.conforms.executeAll, textAt_congr same,
    ← mem_zonePairs_iff kept.conforms]

theorem body_reordered {body : Cfg}
    (found : subtree (rulePath (.name ruleset) key)
      (executeAll device.schema.kinds (reorderCommands order) root) =
        some body) :
    isSystem body = false ∧ ∃ pair ∈ (fetchFirewall locale root).zonePairs,
      pair.ruleset = ruleset := by
  have ordering := kept.ordering permutation
  by_cases target : ∃ (index : Nat) (rule : FirewallRule) (scope : RuleScope),
      order[index]? = some rule ∧ rule.rule ≠ orderNumber index ∧
        scope ∈ rule.scopes ∧ scope.chain = .name ruleset ∧
        key = toString (orderNumber index)
  · obtain ⟨index, rule, scope, present, moved, inScopes, named, rfl⟩ := target
    rw [kept.rebuilt permutation present moved inScopes named] at found
    cases found
    have member := List.mem_of_getElem? present
    exact ⟨(ordering.visible member inScopes).2.2,
      bound_scope (permutation.mem_iff.mp member) inScopes named⟩
  · rw [ordering.subtree_kept fun index rule scope present moved inScopes named
      same => target ⟨index, rule, scope, present, moved, inScopes, named,
        same⟩, Option.ite_none_left_eq_some] at found
    exact ⟨kept.shown _ _ _ found.2, kept.bound_of_body found.2⟩

/-- A ruleset keeps its rules over a reorder. -/
theorem present_reordered {rule : FirewallRule}
    (member : rule ∈ (fetchFirewall locale root).rules)
    (inScopes : .name ruleset ∈ rule.scopes.map RuleScope.chain) :
    ∃ key, (subtree (rulePath (.name ruleset) key) (executeAll
      device.schema.kinds (reorderCommands order) root)).isSome = true := by
  have ordering := kept.ordering permutation
  obtain ⟨scope, held, named⟩ := List.mem_map.mp inScopes
  obtain ⟨index, present⟩ := List.mem_iff_getElem?.mp
    (permutation.mem_iff.mpr member)
  have inOrder := List.mem_of_getElem? present
  refine ⟨toString (orderNumber index), ?_⟩
  by_cases stays : rule.rule = orderNumber index
  · by_cases target : ∃ (other : Nat) (another : FirewallRule)
        (probe : RuleScope), order[other]? = some another ∧
          another.rule ≠ orderNumber other ∧ probe ∈ another.scopes ∧
          probe.chain = .name ruleset ∧
          toString (orderNumber index) = toString (orderNumber other)
    · obtain ⟨other, another, probe, found, moved, inOther, at_, same⟩ := target
      rw [same, kept.rebuilt permutation found moved inOther at_]
      rfl
    · rw [ordering.subtree_kept fun other another probe found moved inOther at_
        same => target ⟨other, another, probe, found, moved, inOther, at_,
          same⟩, if_neg, ← stays, ← named]
      · exact Option.isSome_iff_exists.mpr
          ⟨_, (ordering.visible inOrder held).2.1⟩
      · intro gone
        obtain ⟨other, holder, copy, found, moved, inHolder, same⟩ :=
          mem_vacated.mp gone
        obtain ⟨chains, numbers⟩ := rulePath_injective same
        have indices := ordering.index_unique present found held inHolder
          (named.trans chains) (stays.trans (toString_injective numbers))
        subst indices
        rw [present] at found
        cases found
        exact moved stays
  · rw [kept.rebuilt permutation present stays held named]
    rfl

/-- A reorder keeps the pairs. -/
theorem reorder (taken : device.accepts (executeAll device.schema.kinds
      (reorderCommands order) root) = true) :
    PairsKept device locale
      (executeAll device.schema.kinds (reorderCommands order) root) where
  accepted := taken
  used pair member := by
    rw [kept.zonePairs_reordered permutation] at member
    obtain ⟨key, present⟩ := (ruleEntries_ne_nil kept.conforms).mp
      (kept.used pair member)
    obtain ⟨body, found⟩ := Option.isSome_iff_exists.mp present
    obtain ⟨rule, inRules, inScopes, _⟩ := kept.rule_of_body found
    rw [ruleEntries_ne_nil kept.conforms.executeAll]
    exact kept.present_reordered permutation inRules inScopes
  bound ruleset some := by
    obtain ⟨key, present⟩ :=
      (ruleEntries_ne_nil kept.conforms.executeAll).mp some
    obtain ⟨body, found⟩ := Option.isSome_iff_exists.mp present
    obtain ⟨pair, member, same⟩ := (kept.body_reordered permutation found).2
    exact ⟨pair, (kept.zonePairs_reordered permutation).mpr member, same⟩
  state some := by
    obtain ⟨pair, member⟩ := List.exists_mem_of_ne_nil _ some
    rw [kept.zonePairs_reordered permutation] at member
    have matched := kept.state (List.ne_nil_of_mem member)
    rw [statePolicy_iff] at matched ⊢
    intro state known
    have same : subtree (statePath state)
        (executeAll device.schema.kinds (reorderCommands order) root) =
        subtree (statePath state) root :=
      (kept.ordering permutation).subtree_apart
        fun chain _ key => (quiet_statePath locale
          (fetchFirewall locale root) (.reorder order) state).rule chain [key]
    rw [textAt_congr same]
    exact matched state known
  shown _ _ _ found := (kept.body_reordered permutation found).1
  apart pair member other within same := by
    rw [kept.zonePairs_reordered permutation] at member within
    exact kept.apart pair member other within same
  named pair member := by
    rw [kept.zonePairs_reordered permutation] at member
    exact kept.named pair member

end PairsKept

end Reordering

/-! ## Runs -/

/-- The console from the empty configuration. -/
abbrev freshConsole (device : Device) (locale : Locale) :
    TransitionSystem Cfg Operation :=
  console device locale fun root =>
    root = .node [] ∧ device.accepts root = true

theorem kept_empty {device : Device} (locale : Locale)
    (accepted : device.accepts (.node []) = true) :
    PairsKept device locale (.node []) where
  accepted := accepted
  used _ member := by cases member
  bound _ some := absurd rfl some
  state some := absurd rfl some
  shown ruleset _ _ found := by cases found
  apart _ member := by cases member
  named _ member := by cases member

/-- In every orderly run from the empty configuration pairs are bound just
while they have rules, with the global state match, and every edit removes
exactly the pairs it empties. -/
theorem pairs_alive {device : Device} {locale : Locale} {root : Cfg}
    (reached : ReachableUnder (freshConsole device locale)
      (fun root operation =>
        operation.Offered (fetchFirewall locale root) ∧
          operation.Orderly locale (fetchFirewall locale root)) root) :
    PairsAlive locale root ∧ ∀ operation after, operation.IsEdit →
      operation.Offered (fetchFirewall locale root) →
      operation.Orderly locale (fetchFirewall locale root) →
      (freshConsole device locale).next root operation = some after →
      EmptiedPairsGo locale root after operation := by
  have kept : PairsKept device locale root := by
    refine reached.invariant ?_ ?_
    · rintro root ⟨rfl, accepted⟩
      exact kept_empty locale accepted
    · rintro root operation after kept ⟨offered, orderly⟩ stepped
      obtain ⟨commands, made, rfl, taken⟩ := console_next.mp stepped
      by_cases reorders : ∃ order, operation = .reorder order
      · obtain ⟨order, rfl⟩ := reorders
        cases made
        exact kept.reorder offered taken
      · exact OrderlyStep.kept_after ⟨kept, offered, orderly, made, taken⟩
          (not_exists.mp reorders)
  refine ⟨kept.toPairsAlive, ?_⟩
  intro operation after edits offered orderly stepped
  obtain ⟨commands, made, rfl, taken⟩ := console_next.mp stepped
  exact OrderlyStep.emptied ⟨kept, offered, orderly, made, taken⟩ edits

/-! ## A run that strands a rule -/

theorem empty_fresh :
    (freshConsole vyosDevice codepoints).Initial (.node []) :=
  ⟨rfl, by decide +kernel⟩

theorem spanningRun_fresh :
    (freshConsole vyosDevice codepoints).run (.node []) spanningSteps =
      some (spanningRun.get spanningRun_taken) :=
  (Option.some_get spanningRun_taken).symm

def spanningRule : FirewallRule :=
  (fetchFirewall codepoints (spanningRun.get spanningRun_taken)).rules.head
    (by decide +kernel)

/-- The rule of two pairs deleted again. -/
def clearedRun : Option Cfg :=
  (freshConsole vyosDevice codepoints).next
    (spanningRun.get spanningRun_taken) (.removeRule spanningRule)

theorem clearedRun_taken : clearedRun.isSome = true := by
  decide +kernel

theorem spanningRun_pairs :
    PairsAlive codepoints (spanningRun.get spanningRun_taken) ∧
      EmptiedPairsGo codepoints (spanningRun.get spanningRun_taken)
        (clearedRun.get clearedRun_taken) (.removeRule spanningRule) := by
  have reached : ReachableUnder (freshConsole vyosDevice codepoints)
      (fun root operation =>
        operation.Offered (fetchFirewall codepoints root) ∧
          operation.Orderly codepoints (fetchFirewall codepoints root))
      (spanningRun.get spanningRun_taken) :=
    ReachableUnder.run (.initial empty_fresh) spanningSteps
      (by decide +kernel) spanningRun_fresh
  obtain ⟨alive, emptied⟩ := pairs_alive reached
  exact ⟨alive, emptied _ _ trivial (List.head_mem _) trivial
    (Option.some_get clearedRun_taken).symm⟩

/-- A zone renamed while a rule has a copy in one of its pairs. -/
def renamingSteps : List Operation :=
  spanningSteps ++ [.saveZone (renamedZone "WAN" "INET" "eth0")]

def renamedRun : Option Cfg :=
  (freshConsole vyosDevice codepoints).run (.node []) renamingSteps

theorem renamedRun_taken : renamedRun.isSome = true := by
  decide +kernel

theorem renamed_zone_strands_rule :
    ∃ root, ReachableUnder (freshConsole vyosDevice codepoints)
      (fun root operation =>
        operation.Offered (fetchFirewall codepoints root)) root ∧
      ¬ PairsAlive codepoints root := by
  refine ⟨renamedRun.get renamedRun_taken, ?_, fun alive => ?_⟩
  · exact ReachableUnder.run (.initial empty_fresh) renamingSteps
      (by decide +kernel) (Option.some_get renamedRun_taken).symm
  · have stranded : ∀ pair ∈ (fetchFirewall codepoints
        (renamedRun.get renamedRun_taken)).zonePairs,
        pair.ruleset ≠ "QZ-Z-LAN-TO-WAN" := by
      decide +kernel
    obtain ⟨pair, member, same⟩ :=
      alive.bound "QZ-Z-LAN-TO-WAN" (by decide +kernel)
    exact stranded pair member same

end QuartzFire.Firewall
