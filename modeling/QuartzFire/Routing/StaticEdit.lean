import QuartzFire.Routing.StaticRead

/-!
# Editing static routes

A save brings one row to what the form asks for and a delete removes one row;
the other rows stay.  What else a route holds stays as well, unless the route
goes as a whole: that is decided by the rows alone.
-/

namespace QuartzFire.Routing

open ConfigTree Editing
open Firewall (Cfg Path VyosCommand trimmed childStr has)

/-- The names under which a route holds what its rows show. -/
def rowKeys : List String :=
  ["description", "next-hop", "interface", "blackhole"]

/-! ## Paths that diverge -/

section Paths

theorem routeBase_diverges {family other : RouteFamily}
    {destination target : String}
    (different : ¬ (family = other ∧ destination = target)) :
    Diverges (routeBase family destination) (routeBase other target) := by
  refine diverges_of_length rfl fun same => different ?_
  simp only [routeBase, List.cons.injEq, and_true, true_and] at same
  refine ⟨?_, same.2⟩
  have routes := same.1
  revert routes
  cases family <;> cases other <;> decide

theorem hopLeaf_diverges {id other : HopId} (proper : id.Proper)
    (proper' : other.Proper)
    (different : ¬ (id.kind = other.kind ∧ id.via = other.via)) :
    Diverges (hopLeaf id.kind id.via) (hopLeaf other.kind other.via) := by
  obtain ⟨family, destination, kind, via⟩ := id
  obtain ⟨family', destination', kind', via'⟩ := other
  simp only [HopId.Proper] at proper proper' different
  cases kind <;> cases kind' <;> cases via <;> cases via' <;>
    simp_all [hopLeaf, diverges_cons]

theorem hopPath_diverges {id other : HopId} (proper : id.Proper)
    (proper' : other.Proper) (different : id ≠ other) :
    Diverges (hopPath id) (hopPath other) := by
  by_cases route : id.family = other.family ∧ id.destination = other.destination
  · rw [hopPath, hopPath, HopId.base, HopId.base, route.1, route.2,
      diverges_append_left]
    refine hopLeaf_diverges proper proper' fun hop => different ?_
    cases id
    cases other
    simp_all
  · exact (routeBase_diverges route).append _ _

theorem hopLeaf_diverges_key {kind : StaticRouteKind} {via : Option String}
    {key : String} (foreign : key ∉ ["next-hop", "interface", "blackhole"]) :
    Diverges (hopLeaf kind via) [key] := by
  simp only [List.mem_cons, List.not_mem_nil, or_false, not_or] at foreign
  cases kind <;> rw [hopLeaf, diverges_cons] <;> intro same <;>
    simp [← same] at foreign

/-- A next-hop diverges from what else a route holds. -/
theorem hopPath_diverges_key (id : HopId) (family : RouteFamily)
    (destination : String) {key : String}
    (foreign : key ∉ ["next-hop", "interface", "blackhole"]) :
    Diverges (hopPath id) (routeBase family destination ++ [key]) := by
  by_cases route : id.family = family ∧ id.destination = destination
  · rw [hopPath, HopId.base, route.1, route.2, diverges_append_left]
    exact hopLeaf_diverges_key foreign
  · exact (routeBase_diverges route).append _ _

theorem hopPath_diverges_description (id other : HopId) :
    Diverges (hopPath id) other.descriptionPath :=
  hopPath_diverges_key id _ _ (by decide)

theorem not_mem_hopKeys {key : String} (foreign : key ∉ rowKeys) :
    key ∉ ["next-hop", "interface", "blackhole"] :=
  fun inside => foreign (List.mem_cons_of_mem _ inside)

theorem descriptionPath_diverges_key (id : HopId) (family : RouteFamily)
    (destination : String) {key : String} (foreign : key ∉ rowKeys) :
    Diverges id.descriptionPath (routeBase family destination ++ [key]) := by
  by_cases route : id.family = family ∧ id.destination = destination
  · rw [HopId.descriptionPath, HopId.base, route.1, route.2,
      diverges_append_left, diverges_cons]
    intro same
    simp [← same, rowKeys] at foreign
  · exact (routeBase_diverges route).append _ _

theorem hopPath_proper (id : HopId) : hopPath id ≠ [] := by
  simp [hopPath, routeBase]

end Paths

/-! ## Dropping a next-hop -/

section Dropping

variable {Num : Type} {numerals : Numerals Num} {locale : Firewall.Locale}
  {kinds : Kinds String} {root : Cfg} {id : HopId}

/-- No row beside one: the route has no other next-hop. -/
theorem others_eq_nil_iff (schema : RouteSchema kinds)
    (conforms : Conforms kinds root) :
    others (fetchStaticRoutes numerals locale root) id = [] ↔
      ∀ other : HopId, other.Proper → other ≠ id → other.family = id.family →
        other.destination = id.destination →
          subtree (hopPath other) root = none := by
  simp only [others, siblings, List.filter_eq_nil_iff, List.mem_filter,
    decide_eq_true_eq, not_not, mem_fetchStaticRoutes schema conforms]
  constructor
  · intro alone other proper different family destination
    by_contra there
    obtain ⟨hop, found⟩ := Option.ne_none_iff_exists'.mp there
    refine different (alone (parseHop numerals other
      (textAt (subtree other.descriptionPath root)) hop)
      ⟨⟨proper, ?_⟩, family, destination⟩)
    rw [toHopId_parseHop, readHop, found, Option.map_some]
  · rintro absent row ⟨⟨proper, shown⟩, family, destination⟩
    by_contra different
    rw [readHop, absent _ proper different family destination] at shown
    cases shown

variable (numerals locale) in
/-- The configuration after a next-hop is dropped. -/
abbrev afterDrop (kinds : Kinds String) (root : Cfg) (id : HopId) : Cfg :=
  executeAll kinds (dropHop (fetchStaticRoutes numerals locale root) id) root

theorem dropHop_under (id : HopId) (rows : List (StaticRoute Num)) :
    ∃ more, dropHop rows id = [.delete (id.base ++ more)] ∧
      (more = [] ∧ others rows id = [] ∨
        more = hopLeaf id.kind id.via ∧ others rows id ≠ []) := by
  unfold dropHop
  split
  · rename_i alone
    exact ⟨[], by simp, .inl ⟨rfl, alone⟩⟩
  · rename_i beside
    exact ⟨_, rfl, .inr ⟨rfl, beside⟩⟩

theorem subtree_drop_of_diverges {probe : Path}
    (elsewhere : Diverges id.base probe) :
    subtree probe (afterDrop numerals locale kinds root id) =
      subtree probe root := by
  obtain ⟨more, drops, _⟩ := dropHop_under id
    (fetchStaticRoutes numerals locale root)
  rw [afterDrop, drops]
  refine subtree_delete_of_diverges ?_
  simpa using elsewhere.append more []

/-- What a drop leaves when the route stays. -/
theorem subtree_drop_beside
    (beside : others (fetchStaticRoutes numerals locale root) id ≠ [])
    {probe : Path} (elsewhere : Diverges (hopPath id) probe) :
    subtree probe (afterDrop numerals locale kinds root id) =
      subtree probe root := by
  rw [afterDrop, dropHop, if_neg beside]
  exact subtree_delete_of_diverges elsewhere

/-- Nothing of the route is left when it goes. -/
theorem subtree_drop_alone
    (alone : others (fetchStaticRoutes numerals locale root) id = [])
    (more : Path) :
    subtree (id.base ++ more) (afterDrop numerals locale kinds root id) =
      none := by
  rw [afterDrop, dropHop, if_pos alone]
  exact subtree_delete_below (by simp [routeBase]) (List.prefix_append _ _) _

theorem subtree_drop_self :
    subtree (hopPath id) (afterDrop numerals locale kinds root id) = none := by
  by_cases alone : others (fetchStaticRoutes numerals locale root) id = []
  · exact subtree_drop_alone alone _
  · rw [afterDrop, dropHop, if_neg alone]
    exact subtree_delete_below (hopPath_proper id) (List.prefix_refl _) _

/-- The other next-hops stay. -/
theorem subtree_drop_other (schema : RouteSchema kinds)
    (conforms : Conforms kinds root) (proper : id.Proper) {other : HopId}
    (proper' : other.Proper) (different : other ≠ id) :
    subtree (hopPath other) (afterDrop numerals locale kinds root id) =
      subtree (hopPath other) root := by
  by_cases alone : others (fetchStaticRoutes numerals locale root) id = []
  · by_cases route : other.family = id.family ∧
      other.destination = id.destination
    · rw [(others_eq_nil_iff schema conforms).mp alone other proper' different
        route.1 route.2, hopPath, HopId.base, route.1, route.2]
      exact subtree_drop_alone alone _
    · refine subtree_drop_of_diverges ?_
      have apart := routeBase_diverges fun same =>
        route ⟨same.1.symm, same.2.symm⟩
      simpa [hopPath] using apart.append [] (hopLeaf other.kind other.via)
  · exact subtree_drop_beside alone
      (hopPath_diverges proper proper' different.symm)

/-- The route that goes has nothing that no row shows. -/
def Sheltered (rows : List (StaticRoute Num)) (root : Cfg) (id : HopId) :
    Prop :=
  others rows id = [] →
    ∀ key ∉ rowKeys, subtree (id.base ++ [key]) root = none

/-- What no row shows stays exactly when it is sheltered. -/
theorem subtree_drop_branch_iff :
    (∀ family destination, ∀ key ∉ rowKeys,
      subtree (routeBase family destination ++ [key])
          (afterDrop numerals locale kinds root id) =
        subtree (routeBase family destination ++ [key]) root) ↔
      Sheltered (fetchStaticRoutes numerals locale root) root id := by
  constructor
  · intro kept alone key foreign
    rw [← kept id.family id.destination key foreign]
    exact subtree_drop_alone alone _
  · intro sheltered family destination key foreign
    by_cases alone : others (fetchStaticRoutes numerals locale root) id = []
    · by_cases route : id.family = family ∧ id.destination = destination
      · obtain ⟨rfl, rfl⟩ := route
        rw [sheltered alone key foreign]
        exact subtree_drop_alone alone _
      · refine subtree_drop_of_diverges ?_
        simpa using (routeBase_diverges route).append [] [key]
    · exact subtree_drop_beside alone
        (hopPath_diverges_key id _ _ (not_mem_hopKeys foreign))

/-- No empty route is left. -/
theorem tidy_drop (schema : RouteSchema kinds) (conforms : Conforms kinds root)
    (proper : id.Proper) :
    subtree id.base (afterDrop numerals locale kinds root id) ≠
      some (.node []) := by
  intro empty
  by_cases alone : others (fetchStaticRoutes numerals locale root) id = []
  · have gone := @subtree_drop_alone _ _ _ kinds _ _ alone []
    rw [List.append_nil, empty] at gone
    cases gone
  · refine alone ((others_eq_nil_iff schema conforms).mpr ?_)
    intro other proper' different family destination
    rw [← subtree_drop_other schema conforms proper proper' different, hopPath,
      HopId.base, family, destination, subtree_append, empty, Option.bind_some]
    refine subtree_of_leaf rfl ?_
    cases other.kind <;> simp [hopLeaf]

end Dropping

/-! ## Saving a next-hop -/

section Saving

variable {Num : Type} {numerals : Numerals Num} {locale : Firewall.Locale}
  {kinds : Kinds String} {root : Cfg} {u : StaticRouteUpdate Num}

/-- An update as the form submits it. -/
structure Submitted (numerals : Numerals Num) (rows : List (StaticRoute Num))
    (u : StaticRouteUpdate Num) : Prop where
  proper : u.toHopId.Proper
  original : ∀ o, u.original = some o → ∃ row ∈ rows, row.toHopId = o
  free : ∀ row ∈ rows, row.toHopId = u.toHopId → u.original = some u.toHopId
  interface : u.kind ≠ .gateway → u.interface = none
  distance : ∀ num, u.distance = some num →
    numerals.number (numerals.string num) = some num

/-- The row that is asked for. -/
def StaticRouteUpdate.desired (u : StaticRouteUpdate Num) : StaticRoute Num :=
  { u.toHopId with
    interface := u.interface.bind trimmed
    distance := u.distance
    enabled := u.kind = .blackhole || u.enabled
    description := u.description.bind trimmed }

/-- The rows of the route share its description. -/
def StaticRouteUpdate.retitle (u : StaticRouteUpdate Num)
    (row : StaticRoute Num) : StaticRoute Num :=
  if row.family = u.family ∧ row.destination = u.destination then
    { row with description := u.description.bind trimmed }
  else row

/-- The identities an edit is about. -/
def StaticRouteUpdate.ids (u : StaticRouteUpdate Num) : List HopId :=
  u.toHopId :: u.original.toList

theorem moved_iff {o : HopId} (original : u.original = some o) :
    u.moved = true ↔ o ≠ u.toHopId := by
  simp [StaticRouteUpdate.moved, original]

theorem exists_original (moves : u.moved = true) :
    ∃ o, u.original = some o ∧ o ≠ u.toHopId := by
  cases original : u.original with
  | none => simp [StaticRouteUpdate.moved, original] at moves
  | some o => exact ⟨o, rfl, (moved_iff original).mp moves⟩

variable (numerals locale) in
/-- The configuration after a move has dropped the old next-hop. -/
def afterMove (kinds : Kinds String) (root : Cfg)
    (u : StaticRouteUpdate Num) : Cfg :=
  executeAll kinds (dropMoved (fetchStaticRoutes numerals locale root) u) root

theorem afterMove_of_moved {o : HopId} (original : u.original = some o)
    (moved : o ≠ u.toHopId) :
    afterMove numerals locale kinds root u =
      afterDrop numerals locale kinds root o := by
  rw [afterMove, dropMoved, if_pos ((moved_iff original).mpr moved), original]
  rfl

theorem afterMove_of_stays (stays : u.moved = false) :
    afterMove numerals locale kinds root u = root := by
  rw [afterMove, dropMoved, if_neg (by simp [stays])]
  rfl

theorem conforms_afterMove (conforms : Conforms kinds root) :
    Conforms kinds (afterMove numerals locale kinds root u) :=
  conforms.executeAll

/-- What is left of other next-hops by the move. -/
theorem subtree_move_other (schema : RouteSchema kinds)
    (conforms : Conforms kinds root)
    (submitted : Submitted numerals (fetchStaticRoutes numerals locale root) u)
    {other : HopId} (proper : other.Proper)
    (outside : u.moved = true → u.original ≠ some other) :
    subtree (hopPath other) (afterMove numerals locale kinds root u) =
      subtree (hopPath other) root := by
  cases moves : u.moved with
  | false => rw [afterMove_of_stays moves]
  | true =>
      obtain ⟨o, original, moved⟩ := exists_original moves
      obtain ⟨row, member, rfl⟩ := submitted.original o original
      rw [afterMove_of_moved original moved]
      refine subtree_drop_other schema conforms
        ((mem_fetchStaticRoutes schema conforms row).mp member).1 proper ?_
      rintro rfl
      exact outside moves original

/-- The row an edit is compared with is what is read where it is written. -/
theorem liveHop_eq (schema : RouteSchema kinds)
    (conforms : Conforms kinds root)
    (submitted : Submitted numerals (fetchStaticRoutes numerals locale root) u) :
    liveHop (fetchStaticRoutes numerals locale root) u =
      readHop numerals (afterMove numerals locale kinds root u)
        u.toHopId := by
  by_cases same : u.original = some u.toHopId
  · have stays : u.moved = false := by simp [StaticRouteUpdate.moved, same]
    obtain ⟨row, member, id⟩ := submitted.original _ same
    have shown := ((mem_fetchStaticRoutes schema conforms row).mp member).2
    rw [afterMove_of_stays stays, ← id, shown, liveHop, stays, same,
      if_neg (by simp), Option.bind_some, ← id]
    exact find?_of_distinct (nodup_toHopId schema conforms) member
  · have absent : subtree (hopPath u.toHopId) root = none := by
      by_contra there
      obtain ⟨hop, found⟩ := Option.ne_none_iff_exists'.mp there
      refine same (submitted.free (parseHop numerals u.toHopId
        (textAt (subtree u.descriptionPath root)) hop)
        ((mem_fetchStaticRoutes schema conforms _).mpr
          ⟨submitted.proper, ?_⟩) rfl)
      rw [toHopId_parseHop, readHop, found, Option.map_some]
    have none' : liveHop (fetchStaticRoutes numerals locale root) u = none := by
      unfold liveHop
      cases original : u.original with
      | none => simp
      | some o =>
          have moves : u.moved = true := (moved_iff original).mpr fun equal =>
            same (original.trans (congrArg some equal))
          rw [if_pos moves]
    rw [none', readHop, subtree_move_other schema conforms submitted
      submitted.proper fun _ => same, absent, Option.map_none]

/-! ### The next-hop -/

variable (numerals locale) in
/-- The configuration after the next-hop is written. -/
def afterHop (kinds : Kinds String) (root : Cfg)
    (u : StaticRouteUpdate Num) : Cfg :=
  let live := liveHop (fetchStaticRoutes numerals locale root) u
  executeAll kinds ((made live.isSome (laid ((hopPushes live u).map
    (Push.block numerals)))).map (Command.under (hopPath u.toHopId)))
    (afterMove numerals locale kinds root u)

theorem path_hopPushes (live : Option (StaticRoute Num))
    (u : StaticRouteUpdate Num) :
    (hopPushes live u).map Push.path = (hopShape u.kind).map Prod.fst := by
  unfold hopPushes
  cases u.kind <;> rfl

theorem hopBlocks_separate (live : Option (StaticRoute Num))
    (u : StaticRouteUpdate Num) :
    Separate ((hopPushes live u).map (Push.block numerals)) := by
  refine separate_pushes numerals ?_
  rw [path_hopPushes]
  cases u.kind <;> decide

/-- What the next-hop holds in the end. -/
theorem subtree_afterHop (schema : RouteSchema kinds)
    (conforms : Conforms kinds root)
    (submitted : Submitted numerals (fetchStaticRoutes numerals locale root) u) :
    subtree (hopPath u.toHopId) (afterHop numerals locale kinds root u) =
      some (executeAll (kinds.below (hopPath u.toHopId))
        (laid ((hopPushes (readHop numerals
          (afterMove numerals locale kinds root u) u.toHopId) u).map
            (Push.block numerals)))
        (slice (hopPath u.toHopId)
          (afterMove numerals locale kinds root u))) := by
  rw [afterHop, liveHop_eq schema conforms submitted]
  refine subtree_made (schema.hopNodes _) ?_ (conforms_afterMove conforms) ?_
  · refine (hopBlocks_separate _ u).proper fun member => ?_
    rw [written_pushes, path_hopPushes] at member
    revert member
    cases u.kind <;> decide
  · rw [readHop, Option.isSome_map]
    exact id

/-- The pushes are compared with what is read. -/
theorem hopPushes_live (tree : Cfg) :
    ∀ push ∈ hopPushes (readHop numerals tree u.toHopId) u,
      push.Live numerals (slice (hopPath u.toHopId) tree) := by
  intro push member
  have absent : ∀ key, subtree [key] (.node [] : Cfg) = none := fun _ => rfl
  rw [hopPushes, List.mem_append, List.mem_append] at member
  rcases member with (member | member) | member
  · rw [List.mem_singleton] at member
    subst member
    show _ = numberAt numerals _
    rw [slice, readHop]
    cases subtree (hopPath u.toHopId) tree with
    | none => rfl
    | some hop => exact childNum_eq numerals hop "distance"
  · split at member
    · rename_i gateway
      rw [List.mem_singleton] at member
      subst member
      show _ = textAt _
      rw [slice, readHop]
      cases subtree (hopPath u.toHopId) tree with
      | none => rfl
      | some hop =>
          rw [Option.map_some, Option.bind_some, parseHop, if_pos gateway]
          exact childStr_eq hop "interface"
    · cases member
  · split at member
    · rename_i hasKnob
      rw [List.mem_singleton] at member
      subst member
      show _ = Option.isSome _
      rw [slice, readHop]
      cases subtree (hopPath u.toHopId) tree with
      | none => rfl
      | some hop =>
          simp [parseHop, hasKnob, isEnabled, has_eq]
    · cases member

theorem hopPushes_fits (schema : RouteSchema kinds)
    (live : Option (StaticRoute Num)) :
    ∀ push ∈ hopPushes live u,
      push.Fits (kinds.below (hopPath u.toHopId)) := by
  have shape := schema.hopBody u.toHopId
  intro push member
  rw [hopPushes, List.mem_append, List.mem_append] at member
  rcases member with (member | member) | member
  · rw [List.mem_singleton] at member
    subst member
    refine shape (["distance"], .single) ?_
    cases u.kind <;> simp [hopShape]
  · split at member
    · rename_i gateway
      rw [List.mem_singleton] at member
      subst member
      refine shape (["interface"], .single) ?_
      rw [show u.toHopId.kind = .gateway from gateway]
      simp [hopShape]
    · cases member
  · split at member
    · rename_i hasKnob
      rw [List.mem_singleton] at member
      subst member
      refine .inl (shape (["disable"], .valueless) ?_)
      revert hasKnob
      cases u.kind <;> simp [hopShape]
    · cases member

/-- The next-hop reads as it is asked for. -/
theorem parseHop_afterHop (schema : RouteSchema kinds)
    (conforms : Conforms kinds root)
    (submitted : Submitted numerals (fetchStaticRoutes numerals locale root) u)
    {hop : Cfg} (found : subtree (hopPath u.toHopId)
      (afterHop numerals locale kinds root u) = some hop) :
    parseHop numerals u.toHopId (u.description.bind trimmed) hop =
      u.desired := by
  rw [subtree_afterHop schema conforms submitted, Option.some.injEq] at found
  have done : ∀ push ∈ hopPushes (readHop numerals
      (afterMove numerals locale kinds root u) u.toHopId) u,
      push.Done numerals hop := by
    intro push member
    rw [← found]
    exact Push.done numerals (hopBlocks_separate _ u)
      (List.mem_map_of_mem member) (hopPushes_fits schema _ push member)
      ((conforms_afterMove conforms).slice (schema.hopNodes _))
      (hopPushes_live _ push member)
  generalize readHop numerals (afterMove numerals locale kinds root u)
    u.toHopId = live at done
  have distance := done (.number ["distance"] _ u.distance) (by
    rw [hopPushes, List.append_assoc]
    exact List.mem_cons_self)
  have distance : numberAt numerals (subtree ["distance"] hop) =
      u.distance := by
    refine Eq.trans distance ?_
    cases given : u.distance with
    | none => rfl
    | some num => exact submitted.distance num given
  have interface : (if u.kind = .gateway then childStr hop "interface"
      else none) = u.interface.bind trimmed := by
    split
    · rename_i gateway
      rw [childStr_eq]
      exact done (.leaf ["interface"] (live.bind StaticRoute.interface)
        u.interface) (by simp [hopPushes, gateway])
    · rename_i other
      rw [submitted.interface other, Option.bind_none]
  have enabled : (u.kind = .blackhole || isEnabled hop) =
      (u.kind = .blackhole || u.enabled) := by
    by_cases hole : u.kind = .blackhole
    · simp [hole]
    · have pushed : Push.flag ["disable"]
          (!(live.map StaticRoute.enabled).getD true) (!u.enabled) ∈
            hopPushes live u := by
        simp [hopPushes, hole]
      have raised : (subtree ["disable"] hop).isSome = !u.enabled :=
        done _ pushed
      simp [hole, isEnabled, has_eq, raised]
  rw [parseHop, StaticRouteUpdate.desired, asDistance, childNum_eq, distance]
  simp only [interface, enabled]

end Saving

end QuartzFire.Routing
