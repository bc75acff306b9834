import QuartzFire.Firewall.Pieces

/-!
# What operations do to rules and bindings

An operation changes the config rules it lands on.  Any other rule stays, goes,
or is a hidden one of a baseline.  A binding of a zone pair stays or goes
unless the operation binds the pair.
-/

namespace QuartzFire.Firewall

open ConfigTree

/-- Where the ruleset of a zone pair is named. -/
abbrev rulesetPath (src dst : String) : Path :=
  bindingPath src dst ++ ["firewall", "name"]

/-- A body that is hidden from the console. -/
abbrev HiddenBody (body : Cfg) : Prop := isSystem body = true

theorem textAt_below {path : Path} {root cfg : Cfg}
    (found : subtree path root = some cfg) (rest : Path) :
    textAt (path ++ rest) root = textAt rest cfg := by
  refine textAt_congr ?_
  rw [subtree_append, found, Option.bind_some]

theorem isSystem_eq {path : Path} {root cfg : Cfg}
    (found : subtree path root = some cfg) :
    isSystem cfg =
      (textAt (path ++ ["description"]) root).any (startsWith · sysMark) := by
  rw [isSystem, childStr_eq_textAt, textAt_below found]

variable {schema : CommandSchema} {locale : Locale} {cfg : FirewallConfig}
  {operation : Operation} {chunk : List VyosCommand}

/-! ## Rules an operation does not land on -/

section Rules

variable {chain : RuleChain} {key : String}

theorem diverges_rule_append {other : RuleChain} {number : String}
    (different : (other, number) ≠ (chain, key)) (more : Path) :
    Diverges (rulePath other number ++ more) (rulePath chain key) := by
  simpa using (diverges_rulePath different).append more []

theorem diverges_beside {head : String} (other : head ≠ "ipv4") (more : Path) :
    Diverges ("firewall" :: head :: more) (rulePath chain key) := by
  cases chain <;>
    exact diverges_cons.mpr fun _ => diverges_cons.mpr
      fun same => absurd same other

theorem diverges_filterBase {other : RuleChain} (different : other ≠ chain) :
    Diverges (filterBase other) (filterBase chain) := by
  refine diverges_of_length ?_ ?_
  · cases chain <;> cases other <;> rfl
  · intro same
    refine different (@rulePath_injective other chain "" "" ?_).1
    rw [same]

theorem diverges_setting (other : RuleChain) {head : String}
    (different : head ≠ "rule") (more : Path) :
    Diverges (filterBase other ++ head :: more) (rulePath chain key) := by
  by_cases same : other = chain
  · subst same
    exact (diverges_append_left _).mpr
      (diverges_cons.mpr fun same => absurd same different)
  · exact (diverges_filterBase same).append _ _

/-- A rule that is deleted is gone, and no other. -/
theorem leaves_deleteRule {mark : Cfg → Prop} (other : RuleChain)
    (number : String) :
    Leaves schema.kinds mark (rulePath chain key)
      [.delete (rulePath other number)] := by
  by_cases same : (other, number) = (chain, key)
  · cases same
    exact .delete (by simp) (List.prefix_refl _)
  · exact .ofSpares (.single (diverges_rulePath same))

/-- A ruleset that is deleted goes with its rules. -/
theorem leaves_deleteRuleset {mark : Cfg → Prop} (ruleset : String) :
    Leaves schema.kinds mark (rulePath chain key)
      [.delete (filterBase (.name ruleset))] := by
  by_cases same : .name ruleset = chain
  · subst same
    exact .delete (by simp [filterBase]) (List.prefix_append _ _)
  · refine .ofSpares (.single ?_)
    show Diverges (filterBase (.name ruleset)) (rulePath chain key)
    simpa using (diverges_filterBase same).append [] ["rule", key]

/-- A rule that is given a hidden name in the end is hidden. -/
theorem leaves_hidden {other : RuleChain} {number text : String}
    {writes : List VyosCommand} (below : Below (rulePath other number) writes)
    (hidden : (trimmed text).any (startsWith · sysMark) = true) :
    Leaves schema.kinds HiddenBody (rulePath chain key)
      (writes ++
        [.set (rulePath other number ++ ["description", text])]) := by
  by_cases same : (other, number) = (chain, key)
  · cases same
    refine .last fun tree conforms found here => ?_
    have written := conforms.subtree_set_single (schema.ruleNode chain key)
      (by simpa using schema.ruleDescription chain key) text
    have read : textAt (rulePath chain key ++ ["description"])
        (execute schema.kinds tree
          (.set (rulePath chain key ++ ["description", text]))) =
        trimmed text := textAt_of_value written
    rw [HiddenBody, isSystem_eq here, read]
    exact hidden
  · exact .ofSpares (.append (below.spares (diverges_rule_append same))
      (.single (diverges_rule_append same _)))

theorem leaves_repliesRule (other : RuleChain) (number : String) :
    Leaves schema.kinds HiddenBody (rulePath chain key)
      (repliesRule (rulePath other number)) := by
  have lead := List.prefix_append (rulePath other number)
  exact @leaves_hidden schema chain key other number _
    [.set _, .set _, .set _]
    (.cons (lead _) (.cons (lead _) (.single (lead _)))) (by decide +kernel)

theorem leaves_ipsFlowRuleCommands (other : RuleChain) :
    Leaves schema.kinds HiddenBody (rulePath chain key)
      (ipsFlowRuleCommands (filterBase other)) := by
  have lead := List.prefix_append (rulePath other "1")
  exact @leaves_hidden schema chain key other "1" _
    [.set _, .set _, .set _, .set _]
    (.cons (lead _) (.cons (lead _) (.cons (lead _) (.single (lead _)))))
    (by decide +kernel)

theorem leaves_loopbackRule (other : BaseChain) :
    Leaves schema.kinds HiddenBody (rulePath chain key)
      (loopbackRule other) := by
  have lead := List.prefix_append (rulePath (.base other) "2")
  exact @leaves_hidden schema chain key (.base other) "2" _ [.set _, .set _]
    (.cons (lead _) (.single (lead _))) (by decide +kernel)

/-- A config rule that an operation does not land on stays as it is, goes, or
is a hidden one of a baseline. -/
theorem Piece.leaves_rule (piece : Piece locale cfg operation chunk)
    (apart : ¬ operation.Lands locale cfg chain key) :
    Leaves schema.kinds HiddenBody (rulePath chain key) chunk := by
  have elsewhere : ∀ {other number}, operation.Lands locale cfg other number →
      (other, number) ≠ (chain, key) := by
    rintro other number lands same
    cases same
    exact apart lands
  have beside : ∀ {head more}, head ≠ "ipv4" →
      Diverges ("firewall" :: head :: more) (rulePath chain key) :=
    fun other => diverges_beside other _
  cases piece with
  | group path => exact .ofSpares (.single (path ▸ beside (by decide)))
  | copy lands _ path =>
      exact .ofSpares (.single
        (path ▸ diverges_rule_append (elsewhere lands) _))
  | name same placed member _ =>
      subst same
      exact .ofSpares (.single (diverges_rule_append
        (elsewhere ⟨_, placed, member, rfl⟩) _))
  | unname same placed member =>
      subst same
      exact .ofSpares (.single (diverges_rule_append
        (elsewhere ⟨_, placed, member, rfl⟩) _))
  | rebuild same member inScopes =>
      subst same
      exact .ofSpares ((below_cfgToCommands _ _).spares
        (diverges_rule_append (elsewhere
          ⟨_, member, List.mem_map_of_mem inScopes, rfl⟩)))
  | drop _ => exact leaves_deleteRule _ _
  | cleanup _ _ _ =>
      exact .cons (.ofSpares (.single (beside (by decide))))
        (leaves_deleteRuleset _)
  | flow => exact leaves_ipsFlowRuleCommands _
  | freshFlow =>
      exact .cons (leaves_deleteRule _ _) (leaves_ipsFlowRuleCommands _)
  | replies other _ => exact leaves_repliesRule _ _
  | loopback other => exact leaves_loopbackRule other
  | bind _ =>
      exact .ofSpares (.cons (diverges_setting _ (by decide) _)
        (.single (beside (by decide))))
  | state =>
      exact .ofSpares (.ite (fun _ => .nil) fun _ =>
        .cons (beside (by decide)) (.single (beside (by decide))))
  | seed _ => exact .ofSpares (.single (diverges_setting _ (by decide) _))
  | logging _ => exact .ofSpares (.single (diverges_setting _ (by decide) _))
  | default _ => exact .ofSpares (.single (diverges_setting _ (by decide) _))
  | zone _ _ path => exact .ofSpares (.single (path ▸ beside (by decide)))
  | zoneNode _ => exact .ofSpares (.single (beside (by decide)))
  | dropZone _ => exact .ofSpares (.single (beside (by decide)))
  | dropPair _ _ _ => exact .ofSpares (.single (beside (by decide)))
  | dropRuleset _ _ _ => exact leaves_deleteRuleset _
  | elsewhere other path =>
      refine .ofSpares (.single ?_)
      rw [path]
      cases chain <;> exact diverges_cons.mpr fun same => absurd same other

end Rules

/-! ## Bindings -/

section Bindings

variable {src dst : String}

theorem diverges_beside_zone {head : String} (other : head ≠ "zone")
    (more : Path) :
    Diverges ("firewall" :: head :: more) (rulesetPath src dst) :=
  diverges_cons.mpr fun _ => diverges_cons.mpr fun same => absurd same other

theorem diverges_filter_zone (chain : RuleChain) (more : Path) :
    Diverges (filterBase chain ++ more) (rulesetPath src dst) := by
  cases chain <;> exact diverges_beside_zone (by decide) _

theorem diverges_binding {other probe : String} (more rest : Path)
    (different : (other, probe) ≠ (src, dst)) :
    Diverges (bindingPath other probe ++ more)
      (bindingPath src dst ++ rest) := by
  have apart : Diverges (bindingPath other probe) (bindingPath src dst) := by
    refine diverges_of_length rfl fun same => different ?_
    simp only [bindingPath, List.cons.injEq, and_true, true_and] at same
    rw [same.1, same.2]
  exact apart.append more rest

theorem diverges_zoneBase {name leaf : String} (more : Path)
    (other : name = dst → leaf ≠ "from") :
    Diverges (zoneBase name ++ leaf :: more) (rulesetPath src dst) := by
  refine diverges_cons.mpr fun _ => diverges_cons.mpr fun _ =>
    diverges_cons.mpr fun same => diverges_cons.mpr fun equal => ?_
  exact absurd equal (other same)

theorem diverges_otherZone {name : String} (other : name ≠ dst) :
    Diverges (zoneBase name) (rulesetPath src dst) :=
  diverges_cons.mpr fun _ => diverges_cons.mpr fun _ =>
    diverges_cons.mpr fun same => absurd same other

/-- What an operation leaves at a binding it makes. -/
def Operation.Bound (locale : Locale) (cfg : FirewallConfig)
    (operation : Operation) (src dst : String) (found : Cfg) : Prop :=
  operation.Binds locale cfg ⟨src, dst, pairRuleset src dst⟩ ∧
    found = .value (pairRuleset src dst)

theorem Operation.Binds.bound {pair : ZonePair}
    (binds : operation.Binds locale cfg pair) :
    operation.Bound locale cfg pair.src pair.dst (.value pair.ruleset) := by
  cases operation with
  | saveRule live update =>
      obtain ⟨place, placed, member, unbound⟩ := binds
      have named := placed_ruleset placed member
      refine ⟨⟨place, placed, ?_, ?_⟩, by rw [named]⟩
      · rw [← named]
        exact member
      · rw [← named]
        exact unbound
  | _ => cases binds

/-- What a command has to do with the binding of a pair. -/
inductive BindingTouch (locale : Locale) (cfg : FirewallConfig)
    (operation : Operation) (src dst : String) (command : VyosCommand) :
    Prop where
  | apart : Diverges command.path (rulesetPath src dst) →
      BindingTouch locale cfg operation src dst command
  | binds : operation.Binds locale cfg ⟨src, dst, pairRuleset src dst⟩ →
      command = .set (rulesetPath src dst ++ [pairRuleset src dst]) →
      BindingTouch locale cfg operation src dst command
  | empties {pair : ZonePair} : command = .delete (bindingPath src dst) →
      operation.Empties locale cfg pair → pair.src = src → pair.dst = dst →
      BindingTouch locale cfg operation src dst command
  | node {update : ZoneUpdate} : operation = .saveZone update →
      command = .set (zoneBase dst) →
      BindingTouch locale cfg operation src dst command
  | dropsZone {name : String} {path : Path} : command = .delete path →
      path ≠ [] → path <+: rulesetPath src dst → operation.DropsZone name →
      src = name ∨ dst = name →
      BindingTouch locale cfg operation src dst command

theorem each_apart_binding {commands : List VyosCommand}
    (spared : Spares (rulesetPath src dst) commands) :
    Each (BindingTouch locale cfg operation src dst) commands :=
  spared.imp fun _ => .apart

theorem Piece.touches_binding (piece : Piece locale cfg operation chunk) :
    Each (BindingTouch locale cfg operation src dst) chunk := by
  have beside : ∀ {head more}, head ≠ "zone" →
      Diverges ("firewall" :: head :: more) (rulesetPath src dst) :=
    fun other => diverges_beside_zone other _
  have filter : ∀ {chain more},
      Diverges (filterBase chain ++ more) (rulesetPath src dst) :=
    diverges_filter_zone _ _
  have whole : ∀ chain, Diverges (filterBase chain) (rulesetPath src dst) := by
    intro chain
    simpa using diverges_filter_zone chain []
  have below : ∀ {chain number more},
      Diverges (rulePath chain number ++ more) (rulesetPath src dst) := by
    intro chain number more
    rw [List.append_assoc]
    exact filter
  have flow : Spares (rulesetPath src dst)
      (ipsFlowRuleCommands (filterBase (.base .forward))) := by
    refine baselinePaths_ipsFlowRuleCommands.mono fun path written => ?_
    cases written with
    | rule more _ => exact filter
  cases piece with
  | group path => exact .single (.apart (path ▸ beside (by decide)))
  | copy _ _ path => exact .single (.apart (path ▸ below))
  | name _ _ _ _ => exact .single (.apart below)
  | unname _ _ _ => exact .single (.apart below)
  | rebuild _ _ _ =>
      exact each_apart_binding
        ((below_cfgToCommands _ _).spares fun _ => below)
  | drop _ => exact .single (.apart filter)
  | cleanup vacates found last =>
      rename_i chain number pair
      obtain ⟨rfl, _⟩ := chain_of_pair found
      refine .cons ?_ (.single (.apart (whole (.name _))))
      by_cases same : (pair.src, pair.dst) = (src, dst)
      · cases same
        exact .empties rfl ⟨found, number, vacates, last⟩ rfl rfl
      · exact .apart (diverges_binding [] _ same)
  | flow => exact each_apart_binding flow
  | freshFlow => exact .cons (.apart filter) (each_apart_binding flow)
  | replies _ _ =>
      exact each_apart_binding
        (.cons below (.cons below (.cons below (.single below))))
  | loopback chain =>
      exact each_apart_binding (.cons below (.cons below (.single below)))
  | bind binds =>
      rename_i pair
      refine .cons (.apart filter) (.single ?_)
      by_cases same : (pair.src, pair.dst) = (src, dst)
      · cases same
        obtain ⟨again, named⟩ := binds.bound
        rw [ConfigTree.value.injEq] at named
        rw [named]
        exact .binds again rfl
      · exact .apart (diverges_binding _ _ same)
  | state =>
      exact each_apart_binding (.ite (fun _ => .nil) fun _ =>
        .cons (beside (by decide)) (.single (beside (by decide))))
  | seed _ => exact .single (.apart filter)
  | logging _ => exact .single (.apart filter)
  | default _ => exact .single (.apart filter)
  | zone _ other path =>
      exact .single (.apart (path ▸ diverges_zoneBase _ fun _ => other))
  | zoneNode saves =>
      rename_i update
      by_cases same : update.name = dst
      · exact .single (.node saves (same ▸ rfl))
      · exact .single (.apart (diverges_otherZone same))
  | dropZone drops =>
      rename_i name
      by_cases same : name = dst
      · refine .single (.dropsZone rfl (by simp [zoneBase]) ?_ drops
          (.inr same.symm))
        exact same ▸ List.prefix_append (zoneBase name) _
      · exact .single (.apart (diverges_otherZone same))
  | dropPair saves member part =>
      rename_i zone pair
      subst saves
      by_cases same : (pair.src, pair.dst) = (src, dst)
      · cases same
        exact .single (.dropsZone rfl (by simp [bindingPath])
          (List.prefix_append _ _) rfl (.inl part))
      · exact .single (.apart (diverges_binding [] _ same))
  | dropRuleset _ _ _ => exact .single (.apart (whole (.name _)))
  | elsewhere other path =>
      refine .single (.apart ?_)
      rw [path]
      exact diverges_cons.mpr fun same => absurd same other

/-- A binding stays as it is, goes, or is made by the operation. -/
theorem BindingTouch.leaves {command : VyosCommand}
    (touch : BindingTouch locale cfg operation src dst command) :
    Leaves schema.kinds (operation.Bound locale cfg src dst)
      (rulesetPath src dst) [command] := by
  cases touch with
  | apart diverges => exact .ofSpares (.single diverges)
  | binds binds same =>
      subst same
      refine @Leaves.last _ _ _ _ _ [] _ fun tree conforms found here => ?_
      have written : subtree (rulesetPath src dst) (execute schema.kinds tree
          (.set (rulesetPath src dst ++ [pairRuleset src dst]))) =
          some (.value (pairRuleset src dst)) := by
        simpa [rulesetPath, execute] using conforms.subtree_set_single
          (schema.binding src dst) (schema.bindingName src dst)
          (pairRuleset src dst)
      rw [written] at here
      cases here
      exact ⟨binds, rfl⟩
  | empties same _ _ _ =>
      subst same
      exact .delete (by simp [bindingPath]) (List.prefix_append _ _)
  | node _ same =>
      subst same
      have node : NodePath schema.kinds (zoneBase dst) := by
        have deeper := schema.binding src dst
        exact ⟨deeper.1, deeper.2.1, deeper.2.2.1, trivial⟩
      exact .ofSteady (.setNode node (List.cons_ne_nil "from" _) rfl)
  | dropsZone same proper leads _ _ =>
      subst same
      exact .delete proper leads

end Bindings

/-! ## What is read after an operation -/

section Reading

variable {root : Cfg}

/-- A pair is bound where its ruleset is named. -/
theorem mem_zonePairs_iff {kinds : Kinds String}
    (conforms : Conforms kinds root) {pair : ZonePair} :
    pair ∈ (fetchFirewall locale root).zonePairs ↔
      textAt (rulesetPath pair.src pair.dst) root = some pair.ruleset := by
  have read : ∀ binding,
      subtree (bindingPath pair.src pair.dst) root = some binding →
      childStr (childNode binding "firewall") "name" =
        textAt (rulesetPath pair.src pair.dst) root := by
    intro binding found
    rw [childNode_of_subtree found, childStr_nodeAt]
    rfl
  refine (mem_parseZonePairs conforms).trans ⟨?_, ?_⟩
  · rintro ⟨binding, found, named⟩
    rw [← read binding found, named]
  · intro named
    cases found : subtree (bindingPath pair.src pair.dst) root with
    | none =>
        rw [textAt, rulesetPath, subtree_append, found] at named
        cases named
    | some binding => exact ⟨binding, rfl, (read binding found).trans named⟩

theorem mem_readChains_name {ruleset : String} (locale : Locale) :
    .name ruleset ∈ readChains root ↔
      ∃ pair ∈ (fetchFirewall locale root).zonePairs,
        pair.ruleset = ruleset := by
  simp [readChains, fetchFirewall]

theorem mem_readChains_base (chain : BaseChain) :
    .base chain ∈ readChains root := by
  cases chain <;> simp [readChains]

/-- A rule the console shows is at a scope and a number. -/
def Occupied (root : Cfg) (chain : RuleChain) (number : Nat) : Prop :=
  ∃ raw, Visible root ⟨chain, number, raw⟩

theorem occupied_iff (rendered : Rendered schema.toSchema root)
    (locale : Locale) {chain : RuleChain} {number : Nat} :
    Occupied root chain number ↔
      ∃ rule ∈ (fetchFirewall locale root).rules,
        chain ∈ rule.scopes.map RuleScope.chain ∧ rule.rule = number := by
  constructor
  · rintro ⟨raw, visible⟩
    rw [← mem_placements rendered locale] at visible
    obtain ⟨rule, member, inside⟩ := List.mem_flatMap.mp visible
    obtain ⟨scope, inScopes, same⟩ := List.mem_map.mp inside
    rw [Placement.mk.injEq] at same
    obtain ⟨rfl, rfl, rfl⟩ := same
    exact ⟨rule, member, List.mem_map_of_mem inScopes, rfl⟩
  · rintro ⟨rule, member, inScopes, rfl⟩
    obtain ⟨scope, held, rfl⟩ := List.mem_map.mp inScopes
    refine ⟨scope.raw, (mem_placements rendered locale).mp ?_⟩
    exact List.mem_flatMap.mpr
      ⟨rule, member, List.mem_map.mpr ⟨scope, held, rfl⟩⟩

variable {commands : List VyosCommand}

/-- A pair bound after an operation was bound before, or the operation binds
it. -/
theorem bound_after (conforms : Conforms schema.kinds root)
    (composed : Composed (Piece locale cfg operation) commands)
    {pair : ZonePair}
    (bound : pair ∈ (fetchFirewall locale
      (executeAll schema.kinds commands root)).zonePairs) :
    pair ∈ (fetchFirewall locale root).zonePairs ∨
      operation.Binds locale cfg
        ⟨pair.src, pair.dst, pairRuleset pair.src pair.dst⟩ ∧
      trimmed (pairRuleset pair.src pair.dst) = some pair.ruleset := by
  rw [mem_zonePairs_iff conforms.executeAll] at bound
  have leaves : Leaves schema.kinds
      (operation.Bound locale cfg pair.src pair.dst)
      (rulesetPath pair.src pair.dst) commands :=
    .ofEach ((composed.each fun _ piece => piece.touches_binding).imp
      fun _ touch => touch.leaves)
  rcases leaves root conforms with same | made
  · left
    rwa [mem_zonePairs_iff conforms, ← textAt_congr same]
  · right
    cases found : subtree (rulesetPath pair.src pair.dst)
        (executeAll schema.kinds commands root) with
    | none =>
        rw [textAt, found] at bound
        cases bound
    | some leaf =>
        obtain ⟨binds, rfl⟩ := made leaf found
        rw [textAt_of_value found] at bound
        exact ⟨binds, bound⟩

/-- A rule shown after an operation is where the operation lands, or was there
before, shown or in a ruleset that the operation binds. -/
theorem occupied_after (conforms : Conforms schema.kinds root)
    (composed : Composed (Piece locale cfg operation) commands)
    {chain : RuleChain} {number : Nat}
    (occupied : Occupied (executeAll schema.kinds commands root) chain
      number) :
    operation.Lands locale cfg chain (toString number) ∨
      Occupied root chain number ∨
      ∃ src dst ruleset,
        operation.Binds locale cfg ⟨src, dst, pairRuleset src dst⟩ ∧
        trimmed (pairRuleset src dst) = some ruleset ∧
        chain = .name ruleset ∧
        ∃ raw, subtree (ruleBase chain number) root = some raw := by
  by_cases lands : operation.Lands locale cfg chain (toString number)
  · exact .inl lands
  obtain ⟨raw, read, found, shown⟩ := occupied
  have leaves : Leaves schema.kinds HiddenBody
      (rulePath chain (toString number)) commands :=
    composed.leaves fun _ piece => piece.leaves_rule lands
  have same : subtree (ruleBase chain number) root = some raw := by
    rcases leaves root conforms with same | hidden
    · exact same.symm.trans found
    · have hides : isSystem raw = true := hidden raw found
      exact absurd hides (by simp [shown])
  cases chain with
  | base chain =>
      exact .inr (.inl ⟨raw, mem_readChains_base chain, same, shown⟩)
  | name ruleset =>
      obtain ⟨pair, bound, rfl⟩ := (mem_readChains_name locale).mp read
      rcases bound_after conforms composed bound with before | ⟨binds, reads⟩
      · refine .inr (.inl ⟨raw, ?_, same, shown⟩)
        exact (mem_readChains_name locale).mpr ⟨pair, before, rfl⟩
      · exact .inr (.inr ⟨pair.src, pair.dst, pair.ruleset, binds, reads, rfl,
          raw, same⟩)

end Reading

/-! ## Names of zones -/

section Zones

variable {device : Device} {locale : Locale} {root : Cfg}
  (accepted : device.accepts root = true)
include accepted

theorem zoneName_of_zone {zone : FirewallZone}
    (member : zone ∈ (fetchFirewall locale root).zones) :
    isZoneName zone.name = true := by
  have zones : childNode (fetchFirewallConfig root) "zone" =
      nodeAt ["firewall", "zone"] root := by
    rw [fetchFirewallConfig, childNode_eq_nodeAt root, childNode_nodeAt]
    rfl
  simp only [fetchFirewall, parseZones, zones] at member
  rw [(sortBy_perm _ _ _).mem_iff, List.mem_map] at member
  obtain ⟨⟨name, found⟩, inZones, rfl⟩ := member
  rw [mem_nodeAt_entries (device.rendered _ accepted).conforms (by simp)]
    at inZones
  exact device.zoneName _ accepted name found inZones

theorem zoneNames_of_pair {pair : ZonePair}
    (member : pair ∈ (fetchFirewall locale root).zonePairs) :
    isZoneName pair.src = true ∧ isZoneName pair.dst = true := by
  have conforms := (device.rendered _ accepted).conforms
  obtain ⟨binding, found, _⟩ := (mem_parseZonePairs conforms).mp member
  obtain ⟨zone, above⟩ := device.boundZone _ accepted _ _ _ found
  have split : bindingPath pair.src pair.dst =
      zoneBase pair.dst ++ ["from", pair.src] := rfl
  have below := found
  rw [split, subtree_append, Option.bind_eq_some_iff] at below
  obtain ⟨other, inZones, _⟩ := below
  exact ⟨device.zoneName _ accepted _ _ above,
    device.zoneName _ accepted _ _ inZones⟩

/-- The zones a rule is put between have proper names. -/
theorem zoneName_of_side {selection : EndpointSelection} {name : String}
    (known : ∀ entry ∈ selection, ∀ name, entry.zoneName = some name →
      (∃ zone ∈ (fetchFirewall locale root).zones, zone.name = name) ∨
        ∃ pair ∈ (fetchFirewall locale root).zonePairs,
          pair.src = name ∨ pair.dst = name)
    (member : name ∈ sideZones selection (fetchFirewall locale root).zones) :
    isZoneName name = true := by
  simp only [sideZones] at member
  split_ifs at member
  · rw [mem_distinct, List.mem_filterMap] at member
    obtain ⟨entry, inside, named⟩ := member
    rcases known entry inside name named with ⟨zone, inZones, rfl⟩ |
      ⟨pair, inPairs, rfl | rfl⟩
    · exact zoneName_of_zone accepted inZones
    · exact (zoneNames_of_pair accepted inPairs).1
    · exact (zoneNames_of_pair accepted inPairs).2
  · obtain ⟨zone, found, rfl⟩ := List.mem_map.mp member
    exact zoneName_of_zone accepted
      (List.mem_of_find?_eq_some (Option.mem_toList.mp found))
  · cases member

/-- The pairs of an offered rule name their rulesets as they are read. -/
theorem trimmed_ruleset {live : Option FirewallRule} {update : RuleUpdate}
    {place : RulePlacement}
    (offered : Operation.Offered (fetchFirewall locale root)
      (.saveRule live update))
    (placed : placeRule locale live update (fetchFirewall locale root) =
      .ok place) {pair : ZonePair} (member : pair ∈ place.pairs) :
    trimmed pair.ruleset = some pair.ruleset := by
  obtain ⟨_, inTarget, named⟩ := mem_zonePairsFor (placed_pairs placed) member
  have known : update.ZonesKnown (fetchFirewall locale root) := by
    cases live with
    | none => exact offered.2
    | some live => exact offered.2.2
  rw [named]
  refine trimmed_pairRuleset _ (zoneName_of_side accepted ?_ inTarget)
  intro entry inside
  exact known entry (List.mem_append_right _ inside)

end Zones

end QuartzFire.Firewall
