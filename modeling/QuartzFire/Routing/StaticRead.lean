import QuartzFire.Foundation.ConfigCheck
import QuartzFire.Foundation.Keyed
import QuartzFire.Routing.Static

/-!
# What is read of a static route

A row is listed exactly where its next-hop has a node, and says what that node
and the description of its route hold.
-/

namespace QuartzFire.Routing

open ConfigTree Editing
open Firewall (Cfg Path VyosCommand trimmed childStr has)

/-- What is set below a next-hop. -/
def hopShape : StaticRouteKind → List (Path × Kind)
  | .gateway => [(["distance"], .single), (["interface"], .single),
      (["disable"], .valueless)]
  | .interface => [(["distance"], .single), (["disable"], .valueless)]
  | .blackhole => [(["distance"], .single)]

/-- What the code relies on of the command schema. -/
structure RouteSchema (kinds : Kinds String) : Prop where
  routes : ∀ family destination, NodePath kinds (routeBase family destination)
  body : ∀ family destination,
    Shaped (kinds.below (routeBase family destination))
      [(["description"], .single), (["next-hop"], .node),
        (["interface"], .node), (["blackhole"], .node)]
  hops : ∀ id : HopId,
    FieldAt (kinds.below id.base) (hopLeaf id.kind id.via) .node
  hopBody : ∀ id : HopId, Shaped (kinds.below (hopPath id)) (hopShape id.kind)

/-- A blackhole has no next-hop, the other kinds have one. -/
def HopId.Proper (id : HopId) : Prop := id.via = none ↔ id.kind = .blackhole

instance (id : HopId) : Decidable id.Proper :=
  inferInstanceAs (Decidable (id.via = none ↔ id.kind = .blackhole))

variable {kinds : Kinds String} {root : Cfg}

theorem RouteSchema.hopNodes (schema : RouteSchema kinds) (id : HopId) :
    NodePath kinds (hopPath id) :=
  NodePath.append.mpr ⟨schema.routes id.family id.destination,
    (schema.hops id).nodePath⟩

/-- Where the description of a route is. -/
abbrev HopId.descriptionPath (id : HopId) : Path := id.base ++ ["description"]

section Rows

variable {Num : Type} (numerals : Numerals Num)

/-- The row of an identity, if its next-hop is there. -/
def readHop (root : Cfg) (id : HopId) : Option (StaticRoute Num) :=
  (subtree (hopPath id) root).map
    (parseHop numerals id (textAt (subtree id.descriptionPath root)))

@[simp] theorem toHopId_parseHop (id : HopId) (description : Option String)
    (hop : Cfg) : (parseHop numerals id description hop).toHopId = id := rfl

theorem toHopId_readHop {id : HopId} {row : StaticRoute Num}
    (found : readHop numerals root id = some row) : row.toHopId = id := by
  obtain ⟨hop, _, rfl⟩ := Option.map_eq_some_iff.mp found
  rfl

section One

variable {numerals} {family : RouteFamily} {destination : String}

/-- The rows of the nodes that are named by their next-hops. -/
theorem mem_namedHops {cfg : Cfg} (conforms : Conforms kinds cfg)
    {name : String} (isNode : kinds [name] = .node) (kind : StaticRouteKind)
    (description : Option String) (row : StaticRoute Num) :
    row ∈ ((objectEntries (childNode cfg name)).map fun (via, hop) =>
        parseHop numerals ⟨family, destination, kind, some via⟩ description
          hop) ↔
      ∃ via hop, subtree [name, via] cfg = some hop ∧
        parseHop numerals ⟨family, destination, kind, some via⟩ description
          hop = row := by
  have inner : Conforms (kinds.below [name]) (childNode cfg name) := by
    rw [childNode_slice cfg name conforms isNode]
    exact conforms.slice ⟨isNode, trivial⟩
  rw [List.mem_map]
  constructor
  · rintro ⟨⟨via, hop⟩, member, same⟩
    refine ⟨via, hop, ?_, same⟩
    rw [← subtree_childNode, subtree_singleton]
    exact (mem_objectEntries inner).mp member
  · rintro ⟨via, hop, found, same⟩
    refine ⟨(via, hop), (mem_objectEntries inner).mpr ?_, same⟩
    rw [← subtree_singleton, subtree_childNode]
    exact found

theorem nodup_namedHops {cfg : Cfg} (conforms : Conforms kinds cfg)
    {name : String} (isNode : kinds [name] = .node) (kind : StaticRouteKind)
    (description : Option String) :
    ((objectEntries (childNode cfg name)).map fun (via, hop) =>
        parseHop numerals ⟨family, destination, kind, some via⟩ description
          hop).Nodup := by
  have inner : Conforms (kinds.below [name]) (childNode cfg name) := by
    rw [childNode_slice cfg name conforms isNode]
    exact conforms.slice ⟨isNode, trivial⟩
  refine (nodup_objectEntries inner).map_on ?_
  rintro ⟨left, first⟩ one ⟨right, second⟩ other same
  have ids := congrArg StaticRoute.toHopId same
  simp only [toHopId_parseHop, HopId.mk.injEq, Option.some.injEq, true_and]
    at ids
  subst ids
  have one := (mem_objectEntries inner).mp one
  rw [(mem_objectEntries inner).mp other, Option.some.injEq] at one
  rw [one]

theorem nodup_parseRoute (schema : RouteSchema kinds) {cfg : Cfg}
    (conforms : Conforms (kinds.below (routeBase family destination)) cfg) :
    (parseRoute numerals family destination cfg).Nodup := by
  have shape := schema.body family destination
  have hop := (shape (["next-hop"], .node) (by simp)).kind
  have iface := (shape (["interface"], .node) (by simp)).kind
  rw [parseRoute, List.nodup_append, List.nodup_append]
  refine ⟨⟨nodup_namedHops conforms hop _ _,
    nodup_namedHops conforms iface _ _, ?_⟩, ?_, ?_⟩
  · rintro _ left _ right rfl
    obtain ⟨_, _, _, rfl⟩ := (mem_namedHops conforms hop _ _ _).mp left
    obtain ⟨_, _, _, same⟩ := (mem_namedHops conforms iface _ _ _).mp right
    exact StaticRouteKind.noConfusion (congrArg (·.kind) same)
  · split <;> simp
  · intro row left _ right same
    split at right
    · rw [List.mem_singleton] at right
      subst right same
      rcases List.mem_append.mp left with named | named
      · obtain ⟨_, _, _, same⟩ := (mem_namedHops conforms hop _ _ _).mp named
        exact StaticRouteKind.noConfusion (congrArg (·.kind) same)
      · obtain ⟨_, _, _, same⟩ := (mem_namedHops conforms iface _ _ _).mp named
        exact StaticRouteKind.noConfusion (congrArg (·.kind) same)
    · cases right

theorem mem_parseRoute (schema : RouteSchema kinds) {cfg : Cfg}
    (conforms : Conforms (kinds.below (routeBase family destination)) cfg)
    (row : StaticRoute Num) :
    row ∈ parseRoute numerals family destination cfg ↔
      row.family = family ∧ row.destination = destination ∧
        row.toHopId.Proper ∧
        (subtree (hopLeaf row.kind row.via) cfg).map
          (parseHop numerals row.toHopId
            (textAt (subtree ["description"] cfg))) = some row := by
  have shape := schema.body family destination
  have hop := (shape (["next-hop"], .node) (by simp)).kind
  have iface := (shape (["interface"], .node) (by simp)).kind
  have hole := (shape (["blackhole"], .node) (by simp)).kind
  have alone : has cfg "blackhole" = true → subtree ["blackhole"] cfg =
      some (childNode cfg "blackhole") := by
    intro there
    rw [has_eq] at there
    obtain ⟨node, found⟩ := Option.isSome_iff_exists.mp there
    rw [childNode_slice cfg _ conforms hole, slice_of_found found, found]
  rw [parseRoute, childStr_eq, List.mem_append, List.mem_append,
    mem_namedHops conforms hop, mem_namedHops conforms iface]
  constructor
  · rintro ((⟨via, node, found, rfl⟩ | ⟨via, node, found, rfl⟩) | member)
    · refine ⟨rfl, rfl, by simp [HopId.Proper], ?_⟩
      rw [show hopLeaf _ _ = ["next-hop", via] from rfl, found]
      rfl
    · refine ⟨rfl, rfl, by simp [HopId.Proper], ?_⟩
      rw [show hopLeaf _ _ = ["interface", via] from rfl, found]
      rfl
    · split at member
      · rename_i there
        rw [List.mem_singleton] at member
        subst member
        refine ⟨rfl, rfl, by simp [HopId.Proper], ?_⟩
        rw [show hopLeaf _ _ = ["blackhole"] from rfl, alone there]
        rfl
      · cases member
  · rintro ⟨rfl, rfl, proper, found⟩
    obtain ⟨node, found, same⟩ := Option.map_eq_some_iff.mp found
    cases kind : row.kind with
    | gateway =>
        obtain ⟨via, named⟩ := Option.ne_none_iff_exists'.mp fun none =>
          StaticRouteKind.noConfusion (kind.symm.trans (proper.mp none))
        refine .inl (.inl ⟨via, node, ?_, ?_⟩)
        · rw [kind, named] at found
          exact found
        · rw [← named, ← kind]
          exact same
    | interface =>
        obtain ⟨via, named⟩ := Option.ne_none_iff_exists'.mp fun none =>
          StaticRouteKind.noConfusion (kind.symm.trans (proper.mp none))
        refine .inl (.inr ⟨via, node, ?_, ?_⟩)
        · rw [kind, named] at found
          exact found
        · rw [← named, ← kind]
          exact same
    | blackhole =>
        refine .inr ?_
        rw [kind] at found
        have there : has cfg "blackhole" = true := by
          rw [has_eq, show subtree ["blackhole"] cfg = some node from found]
          rfl
        have body := (alone there).symm.trans found
        cases body
        have whole : (⟨row.family, row.destination, .blackhole, none⟩ :
            HopId) = row.toHopId := by
          rw [← kind, ← proper.mpr kind]
        rw [if_pos there, List.mem_singleton, whole]
        exact same.symm

end One

/-! ## All rows -/

section All

variable {numerals} {locale : Firewall.Locale}

theorem conforms_routes (schema : RouteSchema kinds)
    (conforms : Conforms kinds root) (family : RouteFamily) :
    Conforms (kinds.below ["protocols", "static", family.routeNode])
      (childNode (staticConfig root) family.routeNode) := by
  obtain ⟨protocols, static, route, _⟩ := schema.routes family ""
  have first := conforms.slice (show NodePath kinds ["protocols"] from
    ⟨protocols, trivial⟩)
  have second := first.slice (show NodePath _ ["static"] from
    ⟨static, trivial⟩)
  rw [staticConfig, childNode_slice _ _ conforms protocols,
    childNode_slice _ _ first static, childNode_slice _ _ second route]
  exact second.slice (show NodePath _ [family.routeNode] from
    ⟨route, trivial⟩)

theorem child_routes (root : Cfg) (family : RouteFamily)
    (destination : String) :
    (childNode (staticConfig root) family.routeNode).child destination =
      subtree (routeBase family destination) root := by
  rw [← subtree_singleton, staticConfig, subtree_childNode, subtree_childNode,
    subtree_childNode]
  rfl

theorem mem_parseFamily (schema : RouteSchema kinds)
    (conforms : Conforms kinds root) {family : RouteFamily}
    (row : StaticRoute Num) :
    row ∈ parseFamily numerals locale (staticConfig root) family ↔
      row.family = family ∧ row.toHopId.Proper ∧
        readHop numerals root row.toHopId = some row := by
  have listed := conforms_routes schema conforms family
  rw [parseFamily, (List.perm_insertionSort _ _).mem_iff, List.mem_flatMap]
  constructor
  · rintro ⟨⟨destination, cfg⟩, member, one⟩
    have found := (mem_objectEntries listed).mp member
    rw [child_routes] at found
    have inner := conforms.slice (schema.routes family destination)
    rw [slice_of_found found] at inner
    obtain ⟨rfl, rfl, proper, shown⟩ := (mem_parseRoute schema inner row).mp one
    refine ⟨rfl, proper, ?_⟩
    rwa [readHop, hopPath, HopId.descriptionPath, subtree_append,
      subtree_append, found]
  · rintro ⟨rfl, proper, shown⟩
    obtain ⟨hop, found, _⟩ := Option.map_eq_some_iff.mp shown
    rw [hopPath, subtree_append] at found
    obtain ⟨cfg, there, _⟩ := Option.bind_eq_some_iff.mp found
    refine ⟨(row.destination, cfg), (mem_objectEntries listed).mpr ?_, ?_⟩
    · rw [child_routes]
      exact there
    · have inner := conforms.slice (schema.routes row.family row.destination)
      rw [slice_of_found there] at inner
      refine (mem_parseRoute schema inner row).mpr ⟨rfl, rfl, proper, ?_⟩
      rwa [readHop, hopPath, HopId.descriptionPath, subtree_append,
        subtree_append, there] at shown

/-- The rows are those of the next-hops that are there. -/
theorem mem_fetchStaticRoutes (schema : RouteSchema kinds)
    (conforms : Conforms kinds root) (row : StaticRoute Num) :
    row ∈ fetchStaticRoutes numerals locale root ↔
      row.toHopId.Proper ∧ readHop numerals root row.toHopId = some row := by
  rw [fetchStaticRoutes, List.mem_append, mem_parseFamily schema conforms,
    mem_parseFamily schema conforms]
  cases row.family <;> simp

theorem nodup_parseFamily (schema : RouteSchema kinds)
    (conforms : Conforms kinds root) (family : RouteFamily) :
    (parseFamily numerals locale (staticConfig root) family).Nodup := by
  have listed := conforms_routes schema conforms family
  have inner : ∀ entry ∈ objectEntries
      (childNode (staticConfig root) family.routeNode),
      Conforms (kinds.below (routeBase family entry.1)) entry.2 := by
    rintro ⟨destination, cfg⟩ member
    have found := (mem_objectEntries listed).mp member
    rw [child_routes] at found
    have inner := conforms.slice (schema.routes family destination)
    rwa [slice_of_found found] at inner
  rw [parseFamily, (List.perm_insertionSort _ _).nodup_iff, List.nodup_flatMap]
  refine ⟨fun entry member => nodup_parseRoute schema (inner entry member),
    (nodup_objectEntries listed).pairwise_of_forall_ne ?_⟩
  rintro ⟨left, first⟩ one ⟨right, second⟩ other different row here there
  obtain ⟨_, rfl, _⟩ :=
    (mem_parseRoute schema (inner _ one) row).mp here
  obtain ⟨_, same, _⟩ :=
    (mem_parseRoute schema (inner _ other) row).mp there
  dsimp only at same
  subst same
  have one := (mem_objectEntries listed).mp one
  rw [(mem_objectEntries listed).mp other, Option.some.injEq] at one
  exact different (by rw [one])

theorem nodup_fetchStaticRoutes (schema : RouteSchema kinds)
    (conforms : Conforms kinds root) :
    (fetchStaticRoutes numerals locale root).Nodup := by
  rw [fetchStaticRoutes, List.nodup_append]
  refine ⟨nodup_parseFamily schema conforms _,
    nodup_parseFamily schema conforms _, ?_⟩
  rintro row left _ right rfl
  have here := ((mem_parseFamily schema conforms row).mp left).1
  have there := ((mem_parseFamily schema conforms row).mp right).1
  exact RouteFamily.noConfusion (here.symm.trans there)

/-- A next-hop has one row. -/
theorem eq_of_toHopId (schema : RouteSchema kinds)
    (conforms : Conforms kinds root) {left right : StaticRoute Num}
    (one : left ∈ fetchStaticRoutes numerals locale root)
    (other : right ∈ fetchStaticRoutes numerals locale root)
    (same : left.toHopId = right.toHopId) : left = right := by
  have shown := ((mem_fetchStaticRoutes schema conforms left).mp one).2
  rw [same, ((mem_fetchStaticRoutes schema conforms right).mp other).2,
    Option.some.injEq] at shown
  exact shown.symm

theorem nodup_toHopId (schema : RouteSchema kinds)
    (conforms : Conforms kinds root) :
    ((fetchStaticRoutes numerals locale root).map
      StaticRoute.toHopId).Nodup :=
  (nodup_fetchStaticRoutes schema conforms).map_on fun _ one _ other same =>
    eq_of_toHopId schema conforms one other same

end All

end Rows

end QuartzFire.Routing
