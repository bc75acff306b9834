import QuartzFire.Foundation.ConfigCheck
import QuartzFire.Routing.PolicyEdit

/-!
# Saving prefix lists and route maps

When the list that is read after a save has the desired rules, and the leaves
of a rule that no field covers stay on a rule of the same content.
-/

namespace QuartzFire.Routing

open ConfigTree Editing
open Firewall (Cfg Path VyosCommand trimmed childStr has)

variable {Num : Type} {numerals : Numerals Num} {kinds : Kinds String}
  {root : Cfg} {locale : Firewall.Locale}

/-- Where a rule of a list is. -/
def rulePath (base : Path) (seq : Nat) : Path :=
  base ++ ["rule", toString seq]

/-- What the code relies on of the command schema. -/
structure PolicySchema (kinds : Kinds String) : Prop where
  lists : ∀ family name rule,
    NodePath kinds (prefixBase family name ++ ["rule", rule])
  listRules : ∀ family name seq,
    Shaped (kinds.below (rulePath (prefixBase family name) seq)) prefixShape
  maps : ∀ name rule, NodePath kinds (routeMapBase name ++ ["rule", rule])
  mapRules : ∀ name seq,
    Shaped (kinds.below (rulePath (routeMapBase name) seq)) routeMapShape

/-- Policies as a device renders them: rules are named by their numbers. -/
structure PolicyRendered (kinds : Kinds String) (root : Cfg) : Prop where
  conforms : Conforms kinds root
  lists : ∀ family name,
    Canonical (childNode (slice (prefixBase family name) root) "rule")
  maps : ∀ name,
    Canonical (childNode (slice (routeMapBase name) root) "rule")

/-! ## The rules of a list -/

section Rules

variable {Rule : Type} {form : RowForm Num Nat Rule} {base : Path}
  {rules : List Rule}

/-- The rules below a node. -/
def rulesAt (form : RowForm Num Nat Rule) (base : Path) (root : Cfg) :
    Option (List Rule) :=
  (subtree base root).map fun raw =>
    numberedRows form.parse form.key (childNode raw "rule")

theorem rulesAt_getD (form : RowForm Num Nat Rule) (base : Path) (root : Cfg) :
    (rulesAt form base root).getD [] =
      numberedRows form.parse form.key
        (childNode (slice base root) "rule") := by
  rw [rulesAt, slice]
  cases subtree base root <;> rfl

variable (numerals) in
/-- The configuration after a list is applied. -/
abbrev afterRules (kinds : Kinds String) (form : RowForm Num Nat Rule)
    (base : Path) (root : Cfg) (rules : List Rule) : Cfg :=
  executeAll kinds ((applyRules form.key (form.diff numerals)
    (rulesAt form base root) rules).map (Command.under base)) root

variable (numerals) in
/-- A rule after a list is applied. -/
abbrev afterRule (kinds : Kinds String) (form : RowForm Num Nat Rule)
    (base : Path) (root : Cfg) (rule : Rule) : Cfg :=
  executeAll (kinds.below (rulePath base (form.key rule)))
    (form.diff numerals ((subtree (rulePath base (form.key rule)) root).map
      (form.parse (form.key rule))) rule)
    (slice (rulePath base (form.key rule)) root)

theorem diffRows_proper {live : List Rule} :
    ∀ command ∈ diffRows "rule" form.key toString (form.diff numerals) live
      rules, command ≠ .delete [] := by
  rintro _ member rfl
  rcases List.mem_append.mp member with edits | drops
  · obtain ⟨edit, _, inside⟩ := List.mem_flatMap.mp edits
    obtain ⟨command, _, same⟩ := List.mem_map.mp inside
    cases command <;> cases same
  · obtain ⟨key, _, same⟩ := List.mem_map.mp drops
    cases same

/-- The list after it is applied. -/
theorem subtree_afterRules (nodes : NodePath kinds base)
    (conforms : Conforms kinds root) :
    subtree base (afterRules numerals kinds form base root rules) =
      some (executeAll (kinds.below base)
        (diffRows "rule" form.key toString (form.diff numerals)
          (numberedRows form.parse form.key
            (childNode (slice base root) "rule")) rules)
        (slice base root)) := by
  rw [afterRules, applyRules, rulesAt_getD]
  refine subtree_made nodes diffRows_proper conforms fun present => ?_
  rwa [rulesAt, Option.isSome_map] at present

variable (nodes : ∀ rule, NodePath kinds (base ++ ["rule", rule]))
  (conforms : Conforms kinds root)
  (canonical : Canonical (childNode (slice base root) "rule"))
  (distinct : (rules.map form.key).Nodup)

include nodes conforms canonical distinct

theorem rulesAt_afterRules_iff {normal : Rule → Rule}
    (keeps : ∀ rule, form.key (normal rule) = form.key rule) :
    rulesAt form base (afterRules numerals kinds form base root rules) =
        some ((rules.map normal).insertionSort
          fun left right => form.key left ≤ form.key right) ↔
      ∀ rule ∈ rules, form.parse (form.key rule)
        (afterRule numerals kinds form base root rule) = normal rule := by
  have above : NodePath kinds base := (NodePath.append.mp (nodes "")).1
  have below : ∀ rule, NodePath (kinds.below base) ["rule", rule] := fun rule =>
    (NodePath.append.mp (nodes rule)).2
  rw [rulesAt, subtree_afterRules above conforms, Option.map_some,
    Option.some.injEq, numberedRows_diffRows_iff form.keys below
      (conforms.slice above) canonical distinct
      (fun live row => form.diff_proper numerals live row)
      (fun row => form.diff_creates numerals row) keeps]
  refine forall₂_congr fun rule member => ?_
  rw [afterRule, rulePath, Kinds.below_append,
    ← slice_slice (List.cons_ne_nil "rule" [_]), ← subtree_slice (by simp)]

theorem subtree_afterRule {rule : Rule} (member : rule ∈ rules) :
    subtree (rulePath base (form.key rule))
        (afterRules numerals kinds form base root rules) =
      some (afterRule numerals kinds form base root rule) := by
  have above : NodePath kinds base := (NodePath.append.mp (nodes "")).1
  have below : ∀ rule, NodePath (kinds.below base) ["rule", rule] := fun rule =>
    (NodePath.append.mp (nodes rule)).2
  have lists := Lists.ofNumbered form.keys (conforms.slice above) (below "").1
    canonical
  rw [rulePath, subtree_append, subtree_afterRules above conforms,
    Option.bind_some, lists.subtree_desired form.keys
      (fun _ _ => toString_injective) below (conforms.slice above) distinct
      (fun live row => form.diff_proper numerals live row)
      (fun row => form.diff_creates numerals row) member, afterRule, rulePath,
    Kinds.below_append, ← slice_slice (List.cons_ne_nil "rule" [_]),
    ← subtree_slice (List.cons_ne_nil "rule" [_])]

omit canonical distinct in
/-- What is beside the rules is as it was. -/
theorem subtree_afterRules_of_diverges {probe : Path}
    (diverges : Diverges (base ++ ["rule"]) probe) :
    subtree probe (afterRules numerals kinds form base root rules) =
      subtree probe root := by
  by_cases inside : base <+: probe
  · obtain ⟨path, rfl⟩ := inside
    have apart : Diverges ["rule"] path := by
      rwa [diverges_append_left] at diverges
    have proper : path ≠ [] := by
      rintro rfl
      exact apart.2 (List.nil_prefix)
    have above : NodePath kinds base := (NodePath.append.mp (nodes "")).1
    rw [subtree_append, subtree_afterRules above conforms, Option.bind_some,
      subtree_diffRows_of_diverges fun seq => ?_, subtree_slice proper]
    simpa using apart.append [toString seq] []
  · have apart : Diverges base probe := by
      refine ⟨inside, fun short => diverges.2 ?_⟩
      exact short.trans (List.prefix_append _ _)
    exact (spares_under apart _).subtree_eq root

/-- Nothing that no field covers is on a rule whose content is another than the
live rule of its number had. -/
def NothingCarried (form : RowForm Num Nat Rule) (normal : Rule → Rule)
    (base : Path) (live rules : List Rule) (cfg : Cfg) : Prop :=
  ∀ rule ∈ rules, ∀ row ∈ live, form.key row = form.key rule →
    row ≠ normal rule →
      ¬ HasOther form.shape (slice (rulePath base (form.key rule)) cfg)

theorem nothingCarried_iff {normal : Rule → Rule} {live : List Rule} :
    NothingCarried form normal base live rules
        (afterRules numerals kinds form base root rules) ↔
      NothingCarried form normal base live rules root := by
  refine forall₂_congr fun rule member => ?_
  have saved := @subtree_afterRule _ numerals _ _ _ form base _ nodes conforms
    canonical distinct rule member
  rw [slice, saved, Option.getD_some, form.hasOther_saved]

end Rules

/-! ## Prefix lists -/

theorem child_policy (root : Cfg) (node name : String) :
    (childNode (fetchPolicy root) node).child name =
      subtree ["policy", node, name] root := by
  rw [child_childNode, fetchPolicy, subtree_childNode]

theorem conforms_policy (conforms : Conforms kinds root) {node : String}
    (nodes : NodePath kinds ["policy", node]) :
    Conforms (kinds.below ["policy", node])
      (childNode (fetchPolicy root) node) := by
  obtain ⟨policy, isNode, _⟩ := nodes
  exact conforms_childNode (conforms_childNode conforms policy) isNode

section Lists

theorem PolicySchema.listNodes (schema : PolicySchema kinds)
    (family : PrefixFamily) :
    NodePath kinds ["policy", family.prefixNode] := by
  obtain ⟨policy, isNode, _⟩ := schema.lists family "" ""
  exact ⟨policy, isNode, trivial⟩

theorem PolicySchema.mapNodes (schema : PolicySchema kinds) :
    NodePath kinds ["policy", "route-map"] := by
  obtain ⟨policy, isNode, _⟩ := schema.maps "" ""
  exact ⟨policy, isNode, trivial⟩

theorem mem_parsePrefixLists (schema : PolicySchema kinds)
    (conforms : Conforms kinds root) (family : PrefixFamily)
    (list : PrefixList Num) :
    list ∈ parsePrefixLists numerals locale (fetchPolicy root) family ↔
      list.family = family ∧
        rulesAt (prefixForm numerals) (prefixBase family list.name) root =
          some list.rules := by
  have inner := conforms_policy conforms (schema.listNodes family)
  rw [parsePrefixLists, mem_namedRows (fun _ _ => rfl) inner, child_policy,
    rulesAt, prefixBase]
  obtain ⟨name, family', rules⟩ := list
  constructor
  · intro shown
    obtain ⟨raw, found, same⟩ := Option.map_eq_some_iff.mp shown
    cases same
    rw [found]
    exact ⟨rfl, rfl⟩
  · rintro ⟨rfl, shown⟩
    obtain ⟨raw, found, rfl⟩ := Option.map_eq_some_iff.mp shown
    rw [found]
    rfl

theorem mem_fetchPrefixLists (schema : PolicySchema kinds)
    (conforms : Conforms kinds root) (list : PrefixList Num) :
    list ∈ fetchPrefixLists numerals locale root ↔
      rulesAt (prefixForm numerals) (prefixBase list.family list.name) root =
        some list.rules := by
  rw [fetchPrefixLists, List.mem_append, mem_parsePrefixLists schema conforms,
    mem_parsePrefixLists schema conforms]
  cases family : list.family <;> simp

/-- The list of a family and a name. -/
theorem find_fetchPrefixLists (schema : PolicySchema kinds)
    (conforms : Conforms kinds root) (family : PrefixFamily) (name : String) :
    (fetchPrefixLists numerals locale root).find?
        (fun list => list.family = family ∧ list.name = name) =
      (rulesAt (prefixForm numerals) (prefixBase family name) root).map
        fun rules => ⟨name, family, rules⟩ := by
  cases shown : rulesAt (prefixForm numerals) (prefixBase family name) root with
  | none =>
      rw [Option.map_none, List.find?_eq_none]
      intro list member
      rw [decide_eq_true_eq]
      rintro ⟨rfl, rfl⟩
      rw [mem_fetchPrefixLists schema conforms, shown] at member
      cases member
  | some rules =>
      have there : (⟨name, family, rules⟩ : PrefixList Num) ∈
          fetchPrefixLists numerals locale root :=
        (mem_fetchPrefixLists schema conforms _).mpr shown
      cases found : (fetchPrefixLists numerals locale root).find?
          (fun list => list.family = family ∧ list.name = name) with
      | none =>
          have other := List.find?_eq_none.mp found _ there
          simp at other
      | some list =>
          have same := List.find?_some found
          have member := List.mem_of_find?_eq_some found
          rw [decide_eq_true_eq] at same
          obtain ⟨rfl, rfl⟩ := same
          rw [mem_fetchPrefixLists schema conforms, shown,
            Option.some.injEq] at member
          rw [Option.map_some, member]

/-- Rules in the order of their numbers. -/
abbrev inOrder {Rule : Type} (seq : Rule → Nat) (rules : List Rule) :
    List Rule :=
  rules.insertionSort fun left right => seq left ≤ seq right

/-- The desired list as it reads when it is saved. -/
def PrefixList.normal (u : PrefixList Num) : PrefixList Num :=
  { u with
    rules := inOrder PrefixRule.seq (u.rules.map PrefixRule.normal) }

/-- A prefix list that is applied reads as desired, with nothing from another
rule, and the other lists and the maps are as they were. -/
structure PrefixListApplied (numerals : Numerals Num) (locale : Firewall.Locale)
    (root after : Cfg) (live : Option (PrefixList Num)) (u : PrefixList Num) :
    Prop where
  rules : u.normal ∈ fetchPrefixLists numerals locale after
  apart : NothingCarried (prefixForm numerals) PrefixRule.normal
    (prefixBase u.family u.name) ((live.map (·.rules)).getD []) u.rules after
  others : ∀ list : PrefixList Num,
    ¬ (list.family = u.family ∧ list.name = u.name) →
      (list ∈ fetchPrefixLists numerals locale after ↔
        list ∈ fetchPrefixLists numerals locale root)
  maps : fetchRouteMaps numerals locale after =
    fetchRouteMaps numerals locale root
  elsewhere : ∀ probe,
    Diverges (prefixBase u.family u.name ++ ["rule"]) probe →
      subtree probe after = subtree probe root

/-- The desired numbers read as themselves, and a rule whose content changes
has no leaf the form does not model. -/
structure PrefixListClean (numerals : Numerals Num) (root : Cfg)
    (live : Option (PrefixList Num)) (u : PrefixList Num) : Prop where
  whole : ∀ rule ∈ u.rules, ∀ push ∈ prefixPushes none rule,
    push.Whole numerals
  apart : NothingCarried (prefixForm numerals) PrefixRule.normal
    (prefixBase u.family u.name) ((live.map (·.rules)).getD []) u.rules root

theorem prefixBase_diverges {family other : PrefixFamily} {name another : String}
    (different : ¬ (other = family ∧ another = name)) :
    Diverges (prefixBase family name ++ ["rule"])
      (prefixBase other another) := by
  have bases : Diverges (prefixBase family name) (prefixBase other another) := by
    refine diverges_of_length rfl fun same => different ?_
    simp only [prefixBase, List.cons.injEq, and_true, true_and] at same
    refine ⟨?_, same.2.symm⟩
    have node := same.1
    revert node
    cases family <;> cases other <;> decide
  simpa using bases.append ["rule"] []

theorem childNode_policy (conforms : Conforms kinds root) {node : String}
    (nodes : NodePath kinds ["policy", node]) :
    childNode (fetchPolicy root) node = slice ["policy", node] root := by
  obtain ⟨policy, isNode, _⟩ := nodes
  rw [fetchPolicy,
    childNode_slice _ _ (conforms_childNode conforms policy) isNode,
    childNode_slice _ _ conforms policy,
    slice_slice (List.cons_ne_nil node [])]
  rfl

theorem prefixList_applied_iff (schema : PolicySchema kinds)
    (rendered : PolicyRendered kinds root) {u : PrefixList Num}
    (distinct : (u.rules.map PrefixRule.seq).Nodup)
    {live : Option (PrefixList Num)}
    (found : live = (fetchPrefixLists numerals locale root).find?
      fun list => list.family = u.family ∧ list.name = u.name) :
    PrefixListApplied numerals locale root
        (executeAll kinds (applyPrefixList numerals live u) root) live u ↔
      PrefixListClean numerals root live u := by
  have conforms := rendered.conforms
  have lived : live.map (·.rules) =
      rulesAt (prefixForm numerals) (prefixBase u.family u.name) root := by
    rw [found, find_fetchPrefixLists schema conforms, Option.map_map]
    exact Option.map_id_apply
  have saved : executeAll kinds (applyPrefixList numerals live u) root =
      afterRules numerals kinds (prefixForm numerals)
        (prefixBase u.family u.name) root u.rules := by
    rw [applyPrefixList, lived]
    rfl
  have nodes := schema.lists u.family u.name
  have canonical := rendered.lists u.family u.name
  have after : Conforms kinds (afterRules numerals kinds (prefixForm numerals)
      (prefixBase u.family u.name) root u.rules) := conforms.executeAll
  have spared := fun probe => @subtree_afterRules_of_diverges _ numerals _ _ _
    (prefixForm numerals) _ u.rules nodes conforms probe
  have carried := fun live => @nothingCarried_iff _ numerals _ _ _
    (prefixForm numerals) _ _ nodes conforms canonical distinct
    PrefixRule.normal live
  have reads := @rulesAt_afterRules_iff _ numerals _ _ _ (prefixForm numerals)
    _ u.rules nodes conforms canonical distinct PrefixRule.normal fun _ => rfl
  have done : (∀ rule ∈ u.rules, parsePrefixRule numerals rule.seq
      (afterRule numerals kinds (prefixForm numerals)
        (prefixBase u.family u.name) root rule) = rule.normal) ↔
      ∀ rule ∈ u.rules, ∀ push ∈ prefixPushes none rule,
        push.Whole numerals := by
    refine forall₂_congr fun rule _ => ?_
    exact prefixRule_saved_iff (schema.listRules _ _ _)
      (conforms.slice (nodes _)) (RowForm.opened_subtree _ _ _)
  rw [saved]
  constructor
  · intro applied
    refine ⟨done.mp (reads.mp ?_), (carried _).mp applied.apart⟩
    exact (mem_fetchPrefixLists schema after _).mp applied.rules
  · intro clean
    refine ⟨?_, (carried _).mpr clean.apart, fun list different => ?_, ?_,
      fun probe apart => spared probe apart⟩
    · exact (mem_fetchPrefixLists schema after _).mpr
        (reads.mpr (done.mpr clean.whole))
    · rw [mem_fetchPrefixLists schema after,
        mem_fetchPrefixLists schema conforms, rulesAt, rulesAt,
        spared _ (prefixBase_diverges different)]
    · have same := spared ["policy", "route-map"] (by
        cases u.family <;> exact of_decide_eq_true rfl)
      rw [fetchRouteMaps, fetchRouteMaps, parseRouteMaps, parseRouteMaps,
        childNode_policy after schema.mapNodes,
        childNode_policy conforms schema.mapNodes, slice, slice, same]

end Lists

/-! ## Route maps -/

section Maps

theorem mem_fetchRouteMaps (schema : PolicySchema kinds)
    (conforms : Conforms kinds root) (map : RouteMap Num) :
    map ∈ fetchRouteMaps numerals locale root ↔
      rulesAt (routeMapForm numerals) (routeMapBase map.name) root =
        some map.rules := by
  have inner := conforms_policy conforms schema.mapNodes
  rw [fetchRouteMaps, parseRouteMaps, mem_namedRows (fun _ _ => rfl) inner,
    child_policy, rulesAt, routeMapBase]
  obtain ⟨name, rules⟩ := map
  constructor
  · intro shown
    obtain ⟨raw, found, same⟩ := Option.map_eq_some_iff.mp shown
    cases same
    rw [found]
    rfl
  · intro shown
    obtain ⟨raw, found, rfl⟩ := Option.map_eq_some_iff.mp shown
    rw [found]
    rfl

/-- The map of a name. -/
theorem find_fetchRouteMaps (schema : PolicySchema kinds)
    (conforms : Conforms kinds root) (name : String) :
    (fetchRouteMaps numerals locale root).find? (·.name = name) =
      (rulesAt (routeMapForm numerals) (routeMapBase name) root).map
        fun rules => ⟨name, rules⟩ := by
  rw [fetchRouteMaps, parseRouteMaps, find_namedRows (fun _ _ => rfl)
    (conforms_policy conforms schema.mapNodes), child_policy, rulesAt,
    Option.map_map]
  rfl

/-- The desired map as it reads when it is saved. -/
def RouteMap.normal (u : RouteMap Num) : RouteMap Num :=
  { u with
    rules := inOrder RouteMapRule.seq (u.rules.map RouteMapRule.normal) }

/-- A route map that is applied reads as desired, with only the chosen forms
in force and nothing from another rule, and the other maps and the lists are as
they were. -/
structure RouteMapApplied (numerals : Numerals Num) (locale : Firewall.Locale)
    (root after : Cfg) (live : Option (RouteMap Num)) (u : RouteMap Num) :
    Prop where
  rules : u.normal ∈ fetchRouteMaps numerals locale after
  forms : ∀ rule ∈ u.rules,
    InForce (slice (rulePath (routeMapBase u.name) rule.seq) after)
      rule.on_match
  apart : NothingCarried (routeMapForm numerals) RouteMapRule.normal
    (routeMapBase u.name) ((live.map (·.rules)).getD []) u.rules after
  others : ∀ map : RouteMap Num, map.name ≠ u.name →
    (map ∈ fetchRouteMaps numerals locale after ↔
      map ∈ fetchRouteMaps numerals locale root)
  lists : fetchPrefixLists numerals locale after =
    fetchPrefixLists numerals locale root
  elsewhere : ∀ probe, Diverges (routeMapBase u.name ++ ["rule"]) probe →
    subtree probe after = subtree probe root

/-- The desired numbers read as themselves, no rule leaves a form its live rule
does not show, and a rule whose content changes has no leaf the form does not
model. -/
structure RouteMapClean (numerals : Numerals Num) (root : Cfg)
    (live : Option (RouteMap Num)) (u : RouteMap Num) : Prop where
  whole : ∀ rule ∈ u.rules, ∀ push ∈ routeMapPushes none rule,
    push.Whole numerals
  forms : ∀ rule ∈ u.rules,
    OneForm numerals (slice (rulePath (routeMapBase u.name) rule.seq) root)
      rule
  apart : NothingCarried (routeMapForm numerals) RouteMapRule.normal
    (routeMapBase u.name) ((live.map (·.rules)).getD []) u.rules root

theorem routeMapBase_diverges {name other : String} (different : other ≠ name) :
    Diverges (routeMapBase name ++ ["rule"]) (routeMapBase other) := by
  have bases : Diverges (routeMapBase name) (routeMapBase other) :=
    diverges_of_length rfl (by simpa [routeMapBase] using different.symm)
  simpa using bases.append ["rule"] []

theorem routeMap_applied_iff (schema : PolicySchema kinds)
    (rendered : PolicyRendered kinds root) {u : RouteMap Num}
    (distinct : (u.rules.map RouteMapRule.seq).Nodup)
    {live : Option (RouteMap Num)}
    (found : live = (fetchRouteMaps numerals locale root).find?
      (·.name = u.name)) :
    RouteMapApplied numerals locale root
        (executeAll kinds (applyRouteMap numerals live u) root) live u ↔
      RouteMapClean numerals root live u := by
  have conforms := rendered.conforms
  have lived : live.map (·.rules) =
      rulesAt (routeMapForm numerals) (routeMapBase u.name) root := by
    rw [found, find_fetchRouteMaps schema conforms, Option.map_map]
    exact Option.map_id_apply
  have saved : executeAll kinds (applyRouteMap numerals live u) root =
      afterRules numerals kinds (routeMapForm numerals) (routeMapBase u.name)
        root u.rules := by
    rw [applyRouteMap, lived]
    rfl
  have nodes := schema.maps u.name
  have canonical := rendered.maps u.name
  have after : Conforms kinds (afterRules numerals kinds
      (routeMapForm numerals) (routeMapBase u.name) root u.rules) :=
    conforms.executeAll
  have spared := fun probe => @subtree_afterRules_of_diverges _ numerals _ _ _
    (routeMapForm numerals) _ u.rules nodes conforms probe
  have carried := fun live => @nothingCarried_iff _ numerals _ _ _
    (routeMapForm numerals) _ _ nodes conforms canonical distinct
    RouteMapRule.normal live
  have reads := @rulesAt_afterRules_iff _ numerals _ _ _
    (routeMapForm numerals) _ u.rules nodes conforms canonical distinct
    RouteMapRule.normal fun _ => rfl
  have done : ∀ rule ∈ u.rules,
      (parseRouteMapRule numerals rule.seq (afterRule numerals kinds
          (routeMapForm numerals) (routeMapBase u.name) root rule) =
            rule.normal ∧
        InForce (slice (rulePath (routeMapBase u.name) rule.seq)
          (afterRules numerals kinds (routeMapForm numerals)
            (routeMapBase u.name) root u.rules)) rule.on_match) ↔
      (∀ push ∈ routeMapPushes none rule, push.Whole numerals) ∧
        OneForm numerals (slice (rulePath (routeMapBase u.name) rule.seq) root)
          rule := by
    intro rule member
    have there : slice (rulePath (routeMapBase u.name) rule.seq)
        (afterRules numerals kinds (routeMapForm numerals)
          (routeMapBase u.name) root u.rules) = _ :=
      slice_of_found (subtree_afterRule nodes conforms canonical distinct
        member)
    rw [there]
    exact routeMapRule_saved_iff (schema.mapRules _ _)
      (conforms.slice (nodes _)) (RowForm.opened_subtree _ _ _)
  rw [saved]
  constructor
  · intro applied
    have rules := reads.mp
      ((mem_fetchRouteMaps schema after _).mp applied.rules)
    have each := fun rule member =>
      (done rule member).mp ⟨rules rule member, applied.forms rule member⟩
    exact ⟨fun rule member => (each rule member).1,
      fun rule member => (each rule member).2, (carried _).mp applied.apart⟩
  · intro clean
    have each := fun rule member =>
      (done rule member).mpr ⟨clean.whole rule member, clean.forms rule member⟩
    refine ⟨?_, fun rule member => (each rule member).2,
      (carried _).mpr clean.apart, fun map different => ?_, ?_,
      fun probe apart => spared probe apart⟩
    · exact (mem_fetchRouteMaps schema after _).mpr
        (reads.mpr fun rule member => (each rule member).1)
    · rw [mem_fetchRouteMaps schema after,
        mem_fetchRouteMaps schema conforms, rulesAt, rulesAt,
        spared _ (routeMapBase_diverges different)]
    · have same : ∀ family : PrefixFamily, slice ["policy", family.prefixNode]
          (afterRules numerals kinds (routeMapForm numerals)
            (routeMapBase u.name) root u.rules) =
          slice ["policy", family.prefixNode] root := by
        intro family
        rw [slice, slice, spared ["policy", family.prefixNode] (by
          cases family <;> exact of_decide_eq_true rfl)]
      have read : ∀ family, parsePrefixLists numerals locale (fetchPolicy
          (afterRules numerals kinds (routeMapForm numerals)
            (routeMapBase u.name) root u.rules)) family =
          parsePrefixLists numerals locale (fetchPolicy root) family := by
        intro family
        rw [parsePrefixLists, parsePrefixLists,
          childNode_policy after (schema.listNodes family),
          childNode_policy conforms (schema.listNodes family), same]
      rw [fetchPrefixLists, fetchPrefixLists, read, read]

end Maps

/-- Edits of prefix lists and route maps take effect exactly when they are
clean. -/
theorem policy_applied_iff (schema : PolicySchema kinds)
    (rendered : PolicyRendered kinds root) :
    (∀ u : PrefixList Num, (u.rules.map PrefixRule.seq).Nodup →
      ∀ live, live = (fetchPrefixLists numerals locale root).find?
          (fun list => list.family = u.family ∧ list.name = u.name) →
        (PrefixListApplied numerals locale root
            (executeAll kinds (applyPrefixList numerals live u) root) live u ↔
          PrefixListClean numerals root live u)) ∧
    ∀ u : RouteMap Num, (u.rules.map RouteMapRule.seq).Nodup →
      ∀ live, live = (fetchRouteMaps numerals locale root).find?
          (·.name = u.name) →
        (RouteMapApplied numerals locale root
            (executeAll kinds (applyRouteMap numerals live u) root) live u ↔
          RouteMapClean numerals root live u) :=
  ⟨fun _ distinct _ found => prefixList_applied_iff schema rendered distinct
      found,
    fun _ distinct _ found => routeMap_applied_iff schema rendered distinct
      found⟩

/-! ## A rule with a flag and a target -/

def policyKinds : Kinds String
  | ["policy", "route-map", _, "rule", _, "on-match", "next"] => .valueless
  | ["policy", "route-map", _, "rule", _, leaf] =>
      if leaf ∈ ["match", "set", "on-match"] then .node else .single
  | ["policy", "route-map", _, "rule", _, "match", "community"] => .node
  | ["policy", "route-map", _, "rule", _, "match", "ip"] => .node
  | ["policy", "route-map", _, "rule", _, "match", "ipv6"] => .node
  | ["policy", "route-map", _, "rule", _, "match", _] => .single
  | ["policy", "route-map", _, "rule", _, "match", _, "address"] => .node
  | ["policy", "route-map", _, "rule", _, "match", _, _] => .single
  | ["policy", "route-map", _, "rule", _, "match", _, "address", _] => .single
  | ["policy", "route-map", _, "rule", _, "set", "as-path"] => .node
  | ["policy", "route-map", _, "rule", _, "set", _] => .single
  | ["policy", "route-map", _, "rule", _, "set", _, _] => .single
  | ["policy", "route-map", _, "rule", _, "on-match", _] => .single
  | ["policy", _, _, "rule", _, _] => .single
  | _ => .node

theorem policySchema : PolicySchema policyKinds where
  lists family _ _ := by
    cases family <;> exact ⟨rfl, rfl, rfl, rfl, rfl, trivial⟩
  listRules family _ _ := by cases family <;> exact of_decide_eq_true rfl
  maps _ _ := ⟨rfl, rfl, rfl, rfl, rfl, trivial⟩
  mapRules _ _ := of_decide_eq_true rfl

/-- A map with one rule, which goes on at the next one or at another. -/
def continuing : Cfg :=
  .node [("policy", .node [("route-map", .node [("RM", .node [("rule", .node
    [("10", .node
      [("action", .value "permit"),
        ("on-match", .node [("goto", .value "50"), ("next", .node [])])])])])])])]

theorem rendered_continuing : PolicyRendered policyKinds continuing where
  conforms := conforms_of_check rfl (by decide +kernel)
  lists family name key raw found := by
    rw [child_childNode, subtree_slice (by simp)] at found
    have absent : subtree ["policy", family.prefixNode] continuing = none := by
      cases family <;> decide +kernel
    rw [show prefixBase family name ++ ["rule", key] =
      ["policy", family.prefixNode] ++ [name, "rule", key] from rfl,
      subtree_append, absent] at found
    cases found
  maps name key raw found := by
    rw [child_childNode, subtree_slice (by simp)] at found
    have named : allAt (fun key _ => key = toString (Firewall.ruleNumber key))
        [some "policy", some "route-map", none, some "rule", none]
        continuing = true := by decide +kernel
    rw [show routeMapBase name ++ ["rule", key] =
      (routeMapBase name ++ ["rule"]) ++ [key] from rfl] at found
    exact of_decide_eq_true (allAt_sound _ named (by simp [routeMapBase]) found)

/-- The map that ends at its rule. -/
def ending : RouteMap Nat :=
  { name := "RM"
    rules := [{ parseRouteMapRule decimals 10 (.node []) with
      on_match := .none }] }

theorem continuing_applied_iff :
    RouteMapApplied decimals anyOrder continuing
        (executeAll policyKinds (applyRouteMap decimals
          ((fetchRouteMaps decimals anyOrder continuing).find?
            (·.name = ending.name)) ending) continuing)
        ((fetchRouteMaps decimals anyOrder continuing).find?
          (·.name = ending.name)) ending ↔
      RouteMapClean decimals continuing
        ((fetchRouteMaps decimals anyOrder continuing).find?
          (·.name = ending.name)) ending :=
  (policy_applied_iff policySchema rendered_continuing).2 ending
    (by decide) _ rfl

/-- The target is deleted, and the flag that it hid is in force. -/
theorem next_in_force :
    applyRouteMap decimals ((fetchRouteMaps decimals anyOrder continuing).find?
        (·.name = ending.name)) ending =
      [.delete (rulePath (routeMapBase "RM") 10 ++ ["on-match", "goto"])] ∧
    ¬ RouteMapApplied decimals anyOrder continuing
        (executeAll policyKinds (applyRouteMap decimals
          ((fetchRouteMaps decimals anyOrder continuing).find?
            (·.name = ending.name)) ending) continuing)
        ((fetchRouteMaps decimals anyOrder continuing).find?
          (·.name = ending.name)) ending := by
  refine ⟨by decide +kernel, fun applied => ?_⟩
  have wanted := applied.rules
  revert wanted
  decide +kernel

end QuartzFire.Routing
