import QuartzFire.Routing.StaticEdit

/-!
# Static route rows are independent

After a save the rows are those before with the edited one replaced, and after
a delete those before without the deleted one.  What no row shows of a route
is kept unless the route goes with its only row, and a new row takes over the
description of a route of which no row showed it.
-/

namespace QuartzFire.Routing

open ConfigTree Editing
open Firewall (Cfg Path VyosCommand trimmed childStr has)

variable {Num : Type} {numerals : Numerals Num} {locale : Firewall.Locale}
  {kinds : Kinds String} {root : Cfg}

/-- The next-hops beside some, what else the routes hold and everything beside
the routes are as before, and none of the routes is empty. -/
structure Beside (root after : Cfg) (ids : List HopId) : Prop where
  hops : ∀ other : HopId, other.Proper → other ∉ ids →
    subtree (hopPath other) after = subtree (hopPath other) root
  branches : ∀ family destination, ∀ key ∉ rowKeys,
    subtree (routeBase family destination ++ [key]) after =
      subtree (routeBase family destination ++ [key]) root
  elsewhere : ∀ probe, (∀ id ∈ ids, Diverges id.base probe) →
    subtree probe after = subtree probe root
  tidy : ∀ id ∈ ids, subtree id.base after ≠ some (.node [])

/-! ## Deleting -/

structure RowDeleted (numerals : Numerals Num) (locale : Firewall.Locale)
    (root after : Cfg) (row : StaticRoute Num) : Prop where
  rows : (fetchStaticRoutes numerals locale after).Perm
    ((fetchStaticRoutes numerals locale root).filter
      fun other => other.toHopId ≠ row.toHopId)
  beside : Beside root after [row.toHopId]

section Deleting

variable {row : StaticRoute Num}

theorem readHop_deleted (schema : RouteSchema kinds)
    (conforms : Conforms kinds root) {id : HopId} (proper : id.Proper)
    {other : HopId} (proper' : other.Proper) :
    readHop numerals (afterDrop numerals locale kinds root id) other =
      if other = id then none else readHop numerals root other := by
  split
  · rename_i same
    rw [same, readHop, subtree_drop_self, Option.map_none]
  · rename_i different
    rw [readHop, readHop,
      subtree_drop_other schema conforms proper proper' different]
    cases found : subtree (hopPath other) root with
    | none => rw [Option.map_none, Option.map_none]
    | some hop =>
        have kept : subtree other.descriptionPath
            (afterDrop numerals locale kinds root id) =
              subtree other.descriptionPath root := by
          by_cases route : id.family = other.family ∧
            id.destination = other.destination
          · refine subtree_drop_beside (fun alone => ?_)
              (hopPath_diverges_description id other)
            rw [(others_eq_nil_iff schema conforms).mp alone other proper'
              different route.1.symm route.2.symm] at found
            cases found
          · refine subtree_drop_of_diverges ?_
            simpa using (routeBase_diverges route).append [] ["description"]
        rw [kept]

theorem rowDeleted_iff (schema : RouteSchema kinds)
    (conforms : Conforms kinds root)
    (member : row ∈ fetchStaticRoutes numerals locale root) :
    RowDeleted numerals locale root (executeAll kinds
        (deleteStaticRoute (fetchStaticRoutes numerals locale root) row) root)
        row ↔
      Sheltered (fetchStaticRoutes numerals locale root) root row.toHopId := by
  have proper := ((mem_fetchStaticRoutes schema conforms row).mp member).1
  have after : Conforms kinds
      (afterDrop numerals locale kinds root row.toHopId) :=
    conforms.executeAll
  constructor
  · intro deleted
    exact subtree_drop_branch_iff.mp deleted.beside.branches
  · intro sheltered
    refine ⟨?_, ?_, subtree_drop_branch_iff.mpr sheltered, ?_, ?_⟩
    · refine (List.perm_ext_iff_of_nodup
        (nodup_fetchStaticRoutes schema after)
        ((nodup_fetchStaticRoutes schema conforms).filter _)).mpr fun other => ?_
      rw [List.mem_filter, decide_eq_true_eq,
        mem_fetchStaticRoutes schema conforms]
      refine (mem_fetchStaticRoutes schema after other).trans ?_
      constructor
      · rintro ⟨proper', shown⟩
        rw [readHop_deleted schema conforms proper proper'] at shown
        split at shown
        · cases shown
        · exact ⟨⟨proper', shown⟩, ‹_›⟩
      · rintro ⟨⟨proper', shown⟩, different⟩
        rw [readHop_deleted schema conforms proper proper', if_neg different]
        exact ⟨proper', shown⟩
    · intro other proper' outside
      exact subtree_drop_other schema conforms proper proper'
        fun same => outside (List.mem_singleton.mpr same)
    · intro probe elsewhere
      exact subtree_drop_of_diverges (elsewhere _ List.mem_cons_self)
    · intro id one
      rw [List.mem_singleton.mp one]
      exact tidy_drop schema conforms proper

end Deleting

/-! ## Saving -/

section Saving

variable {u : StaticRouteUpdate Num}

variable (numerals locale) in
/-- The configuration after a save. -/
abbrev afterSave (kinds : Kinds String) (root : Cfg)
    (u : StaticRouteUpdate Num) : Cfg :=
  executeAll kinds
    (applyStaticRoute numerals (fetchStaticRoutes numerals locale root) u) root

theorem afterSave_eq : afterSave numerals locale kinds root u =
    executeAll kinds ((leaf ["description"]
        (liveDescription (fetchStaticRoutes numerals locale root) u)
        u.description).map (Command.under u.base))
      (afterHop numerals locale kinds root u) := by
  rw [afterSave, applyStaticRoute, executeAll_append, executeAll_append]
  rfl

/-- What the description writes is spared where it diverges. -/
theorem spares_description {probe : Path} (live : Option String)
    (description : Diverges u.descriptionPath probe) :
    Spares probe ((leaf ["description"] live u.description).map
      (Command.under u.base)) := by
  refine Each.map fun command member => ?_
  obtain ⟨more, placed⟩ := leaf_local _ _ _ command member
  rw [Command.path_under, ← placed, ← List.append_assoc]
  simpa using description.append more []

/-- Apart from the next-hop and the description, a save leaves what the move
left. -/
theorem subtree_save_of_diverges {probe : Path}
    (hop : Diverges (hopPath u.toHopId) probe)
    (description : Diverges u.descriptionPath probe) :
    subtree probe (afterSave numerals locale kinds root u) =
      subtree probe (afterMove numerals locale kinds root u) := by
  rw [afterSave_eq, (spares_description _ description).subtree_eq, afterHop,
    (spares_under hop _).subtree_eq]

/-- The written next-hop stays when the description is written. -/
theorem subtree_save_hop : subtree (hopPath u.toHopId)
    (afterSave numerals locale kinds root u) =
      subtree (hopPath u.toHopId) (afterHop numerals locale kinds root u) := by
  rw [afterSave_eq, (spares_description _
    (hopPath_diverges_description u.toHopId u.toHopId).symm).subtree_eq]

/-! ### The description -/

theorem wipedHere_iff : wipedHere (fetchStaticRoutes numerals locale root) u =
    true ↔ u.moved = true ∧ ∃ o, u.original = some o ∧
      others (fetchStaticRoutes numerals locale root) o = [] ∧
      o.family = u.family ∧ o.destination = u.destination := by
  cases original : u.original <;>
    simp [wipedHere, original, StaticRouteUpdate.moved]

/-- Unless the route goes, the move leaves its description. -/
theorem subtree_move_description {id : HopId}
    (stays : ∀ o, u.original = some o → u.moved = true →
      others (fetchStaticRoutes numerals locale root) o = [] →
        ¬ (o.family = id.family ∧ o.destination = id.destination)) :
    subtree id.descriptionPath (afterMove numerals locale kinds root u) =
      subtree id.descriptionPath root := by
  cases moves : u.moved with
  | false => rw [afterMove_of_stays moves]
  | true =>
      obtain ⟨o, original, moved⟩ := exists_original moves
      rw [afterMove_of_moved original moved]
      by_cases alone : others (fetchStaticRoutes numerals locale root) o = []
      · refine subtree_drop_of_diverges ?_
        have route := stays o original moves alone
        simpa using (routeBase_diverges route).append [] ["description"]
      · exact subtree_drop_beside alone (hopPath_diverges_description o id)

/-- A route without rows has no description that a row without one would take
over. -/
def DescriptionKnown (rows : List (StaticRoute Num)) (root : Cfg)
    (u : StaticRouteUpdate Num) : Prop :=
  siblings rows u.family u.destination = [] → u.description.bind trimmed = none →
    textAt (subtree u.descriptionPath root) = none

theorem siblings_eq_nil_iff {rows : List (StaticRoute Num)} :
    siblings rows u.family u.destination = [] ↔
      (rows.find? fun r =>
        r.family = u.family ∧ r.destination = u.destination) = none := by
  simp [siblings, List.filter_eq_nil_iff]

/-- What the description is compared with. -/
theorem liveDescription_eq (schema : RouteSchema kinds)
    (conforms : Conforms kinds root)
    (shown : siblings (fetchStaticRoutes numerals locale root) u.family
      u.destination ≠ []) :
    liveDescription (fetchStaticRoutes numerals locale root) u =
      textAt (subtree u.descriptionPath
        (afterMove numerals locale kinds root u)) := by
  unfold liveDescription
  split
  · rename_i wiped
    obtain ⟨moves, o, original, alone, family, destination⟩ :=
      wipedHere_iff.mp wiped
    rw [afterMove_of_moved original ((moved_iff original).mp moves),
      HopId.descriptionPath, HopId.base, ← family, ← destination,
      subtree_drop_alone alone]
    rfl
  · rename_i kept
    rw [subtree_move_description fun o original moves alone route =>
      kept (wipedHere_iff.mpr ⟨moves, o, original, alone, route⟩)]
    rw [Ne, siblings_eq_nil_iff] at shown
    obtain ⟨row, found⟩ := Option.ne_none_iff_exists'.mp shown
    have route := List.find?_some found
    rw [decide_eq_true_eq] at route
    have read := ((mem_fetchStaticRoutes schema conforms row).mp
      (List.mem_of_find?_eq_some found)).2
    obtain ⟨hop, _, same⟩ := Option.map_eq_some_iff.mp read
    rw [found, Option.bind_some, ← same, parseHop, HopId.descriptionPath,
      HopId.descriptionPath, HopId.base, HopId.base, route.1, route.2]

/-- Without rows the description is compared with none. -/
theorem liveDescription_none
    (submitted : Submitted numerals (fetchStaticRoutes numerals locale root) u)
    (alone : siblings (fetchStaticRoutes numerals locale root) u.family
      u.destination = []) :
    liveDescription (fetchStaticRoutes numerals locale root) u = none ∧
      subtree u.descriptionPath (afterMove numerals locale kinds root u) =
        subtree u.descriptionPath root := by
  constructor
  · rw [liveDescription, siblings_eq_nil_iff.mp alone]
    split <;> rfl
  · refine subtree_move_description fun o original _ _ route => ?_
    obtain ⟨row, member, rfl⟩ := submitted.original o original
    have inside : row ∈ siblings (fetchStaticRoutes numerals locale root)
        u.family u.destination :=
      List.mem_filter.mpr ⟨member, decide_eq_true route⟩
    exact List.ne_nil_of_mem inside alone

theorem description_saved (schema : RouteSchema kinds)
    (conforms : Conforms kinds root)
    (submitted : Submitted numerals (fetchStaticRoutes numerals locale root) u) :
    textAt (subtree u.descriptionPath
        (afterSave numerals locale kinds root u)) =
      u.description.bind trimmed ↔
        DescriptionKnown (fetchStaticRoutes numerals locale root) root u := by
  have field := schema.body u.family u.destination (["description"], .single)
    (by simp)
  have before : subtree u.descriptionPath
      (afterHop numerals locale kinds root u) =
        subtree u.descriptionPath (afterMove numerals locale kinds root u) := by
    rw [afterHop]
    exact (spares_under (hopPath_diverges_description _ _) _).subtree_eq _
  have here : Conforms kinds (afterHop numerals locale kinds root u) :=
    (conforms_afterMove conforms).executeAll
  have proper : ∀ live, ∀ command ∈ leaf ["description"] live u.description,
      command ≠ .delete [] := by
    rintro live _ member rfl
    simpa [Command.path] using leaf_local _ _ _ _ member
  -- The leaf is written below the route.
  have wrote : ∀ live mark,
      liveDescription (fetchStaticRoutes numerals locale root) u = live →
      Yields (kinds.below u.base) ["description"]
        (subtree u.descriptionPath (afterMove numerals locale kinds root u))
        mark (leaf ["description"] live u.description) →
      mark (subtree u.descriptionPath
        (afterSave numerals locale kinds root u)) := by
    rintro live mark rfl yields
    rw [afterSave_eq, HopId.descriptionPath, ← subtree_slice (by simp),
      slice_executeAll_under (schema.routes _ _) (proper _) here]
    refine yields _ (here.slice (schema.routes _ _)) ?_
    rw [subtree_slice (by simp)]
    exact before
  by_cases alone : siblings (fetchStaticRoutes numerals locale root) u.family
    u.destination = []
  · obtain ⟨bare, same⟩ := @liveDescription_none _ _ _ kinds _ _ submitted
      alone
    cases wants : u.description.bind trimmed with
    | some text =>
        rw [show DescriptionKnown _ root u ↔ True by
          simp [DescriptionKnown, wants]]
        refine iff_true_intro (wrote none (textAt · = some text) bare ?_)
        rw [leaf_set wants (by simp)]
        exact write_yields field (trimmed_of_wants wants)
    | none =>
        rw [show DescriptionKnown _ root u ↔
          textAt (subtree u.descriptionPath root) = none by
            simp [DescriptionKnown, wants, alone]]
        have kept := wrote none (· = subtree u.descriptionPath
          (afterMove numerals locale kinds root u)) bare (by
            rw [leaf_same wants]
            exact .nil rfl)
        rw [kept, same]
  · rw [show DescriptionKnown _ root u ↔ True by
      simp [DescriptionKnown, alone]]
    refine iff_true_intro (wrote _ (textAt · = u.description.bind trimmed)
      (liveDescription_eq schema conforms alone) ?_)
    exact leaf_yields field rfl

/-! ### The rows -/

theorem subtree_save_other (schema : RouteSchema kinds)
    (conforms : Conforms kinds root)
    (submitted : Submitted numerals (fetchStaticRoutes numerals locale root) u)
    {other : HopId} (proper : other.Proper) (outside : other ∉ u.ids) :
    subtree (hopPath other) (afterSave numerals locale kinds root u) =
      subtree (hopPath other) root := by
  rw [StaticRouteUpdate.ids, List.mem_cons, not_or, Option.mem_toList]
    at outside
  rw [subtree_save_of_diverges
    (hopPath_diverges submitted.proper proper (Ne.symm outside.1))
    (hopPath_diverges_description other u.toHopId).symm,
    subtree_move_other schema conforms submitted proper fun _ => outside.2]

/-- What is read of every identity after a save. -/
theorem readHop_saved (schema : RouteSchema kinds)
    (conforms : Conforms kinds root)
    (submitted : Submitted numerals (fetchStaticRoutes numerals locale root) u)
    (known : DescriptionKnown (fetchStaticRoutes numerals locale root) root u)
    {id : HopId} (proper : id.Proper) :
    readHop numerals (afterSave numerals locale kinds root u) id =
      if id = u.toHopId then some u.desired
      else if u.original = some id then none
      else (readHop numerals root id).map u.retitle := by
  have described := (description_saved schema conforms submitted).mpr known
  split
  · rename_i same
    subst same
    have there := subtree_afterHop schema conforms submitted
    rw [readHop, subtree_save_hop, described, there, Option.map_some,
      parseHop_afterHop schema conforms submitted there]
  · rename_i different
    split
    · rename_i original
      have gone : subtree (hopPath id)
          (afterSave numerals locale kinds root u) = none := by
        rw [subtree_save_of_diverges
          (hopPath_diverges submitted.proper proper (Ne.symm different))
          (hopPath_diverges_description id u.toHopId).symm,
          afterMove_of_moved original different, subtree_drop_self]
      rw [readHop, gone, Option.map_none]
    · rename_i fresh
      have kept := subtree_save_other schema conforms submitted proper
        (show id ∉ u.ids by simp [StaticRouteUpdate.ids, different, fresh])
      rw [readHop, readHop, kept]
      cases found : subtree (hopPath id) root with
      | none => rfl
      | some hop =>
          rw [Option.map_some, Option.map_some, Option.map_some]
          by_cases route : id.family = u.family ∧
            id.destination = u.destination
          · have title : subtree id.descriptionPath
                (afterSave numerals locale kinds root u) =
                  subtree u.descriptionPath
                    (afterSave numerals locale kinds root u) := by
              rw [HopId.descriptionPath, HopId.descriptionPath, HopId.base,
                HopId.base, route.1, route.2]
            rw [title, described, StaticRouteUpdate.retitle,
              toHopId_parseHop, if_pos route]
            rfl
          · have title : subtree id.descriptionPath
                (afterSave numerals locale kinds root u) =
                  subtree id.descriptionPath root := by
              have apart := routeBase_diverges fun same =>
                route ⟨same.1.symm, same.2.symm⟩
              rw [subtree_save_of_diverges
                (hopPath_diverges_description u.toHopId id)
                (apart.append _ _), subtree_move_description]
              -- A route that goes has no row beside the edited one.
              intro o original _ alone same
              rw [(others_eq_nil_iff schema conforms).mp alone id proper
                (fun same => fresh (same ▸ original)) same.1.symm same.2.symm]
                at found
              cases found
            rw [title, StaticRouteUpdate.retitle, toHopId_parseHop,
              if_neg route]

/-- The names under which a next-hop holds what its row shows. -/
def hopKeys : List String := ["distance", "interface", "disable"]

structure RowApplied (numerals : Numerals Num) (locale : Firewall.Locale)
    (root after : Cfg) (u : StaticRouteUpdate Num) : Prop where
  rows : (fetchStaticRoutes numerals locale after).Perm
    (u.desired :: ((fetchStaticRoutes numerals locale root).filter
      fun other => other.toHopId ∉ u.ids).map u.retitle)
  /-- What else is set on a next-hop that is edited in place. -/
  settings : u.original = some u.toHopId → ∀ key ∉ hopKeys,
    subtree (hopPath u.toHopId ++ [key]) after =
      subtree (hopPath u.toHopId ++ [key]) root
  beside : Beside root after u.ids

@[simp] theorem toHopId_desired : u.desired.toHopId = u.toHopId := rfl

@[simp] theorem toHopId_retitle (row : StaticRoute Num) :
    (u.retitle row).toHopId = row.toHopId := by
  unfold StaticRouteUpdate.retitle
  split <;> rfl

theorem rows_saved (schema : RouteSchema kinds) (conforms : Conforms kinds root)
    (submitted : Submitted numerals (fetchStaticRoutes numerals locale root) u)
    (known : DescriptionKnown (fetchStaticRoutes numerals locale root) root u) :
    (fetchStaticRoutes numerals locale
        (afterSave numerals locale kinds root u)).Perm
      (u.desired :: ((fetchStaticRoutes numerals locale root).filter
        fun other => other.toHopId ∉ u.ids).map u.retitle) := by
  have after : Conforms kinds (afterSave numerals locale kinds root u) :=
    conforms.executeAll
  refine (List.perm_ext_iff_of_nodup (nodup_fetchStaticRoutes schema after)
    (List.nodup_cons.mpr ⟨?_, ?_⟩)).mpr fun row => ?_
  · rw [List.mem_map]
    rintro ⟨other, inside, same⟩
    rw [List.mem_filter, decide_eq_true_eq] at inside
    refine inside.2 ?_
    rw [← toHopId_retitle, same, toHopId_desired]
    exact List.mem_cons_self
  · refine ((nodup_fetchStaticRoutes schema conforms).filter _).map_on ?_
    intro left one right other same
    refine eq_of_toHopId schema conforms (List.mem_filter.mp one).1
      (List.mem_filter.mp other).1 ?_
    rw [← toHopId_retitle, same, toHopId_retitle]
  · rw [mem_fetchStaticRoutes schema after, List.mem_cons, List.mem_map]
    constructor
    · rintro ⟨proper, shown⟩
      rw [readHop_saved schema conforms submitted known proper] at shown
      split at shown
      · exact .inl (Option.some.inj shown).symm
      · split at shown
        · cases shown
        · rename_i different fresh
          obtain ⟨old, read, same⟩ := Option.map_eq_some_iff.mp shown
          have id := toHopId_readHop numerals read
          refine .inr ⟨old, List.mem_filter.mpr ⟨?_, ?_⟩, same⟩
          · refine (mem_fetchStaticRoutes schema conforms old).mpr ?_
            rw [id]
            exact ⟨proper, read⟩
          · rw [id]
            simp [StaticRouteUpdate.ids, different, fresh]
    · rintro (rfl | ⟨old, inside, rfl⟩)
      · refine ⟨submitted.proper, ?_⟩
        rw [toHopId_desired, readHop_saved schema conforms submitted known
          submitted.proper, if_pos rfl]
      · obtain ⟨listed, outside⟩ := List.mem_filter.mp inside
        rw [decide_eq_true_eq, StaticRouteUpdate.ids, List.mem_cons, not_or,
          Option.mem_toList] at outside
        have read := (mem_fetchStaticRoutes schema conforms old).mp listed
        rw [toHopId_retitle, readHop_saved schema conforms submitted known
          read.1, if_neg outside.1, if_neg outside.2, read.2]
        exact ⟨read.1, rfl⟩

/-! ### What no row shows -/

theorem settings_saved (schema : RouteSchema kinds)
    (conforms : Conforms kinds root)
    (submitted : Submitted numerals (fetchStaticRoutes numerals locale root) u)
    (stays : u.original = some u.toHopId) {key : String}
    (foreign : key ∉ hopKeys) :
    subtree (hopPath u.toHopId ++ [key])
        (afterSave numerals locale kinds root u) =
      subtree (hopPath u.toHopId ++ [key]) root := by
  have unmoved : u.moved = false := by simp [StaticRouteUpdate.moved, stays]
  rw [subtree_append, subtree_save_hop, subtree_afterHop schema conforms
    submitted, Option.bind_some, afterMove_of_stays unmoved,
    ← subtree_slice (by simp)]
  refine (spares_laid (hopBlocks_separate _ u).each ?_).subtree_eq _
  intro leaf member
  rw [written_pushes, path_hopPushes] at member
  rw [hopKeys, List.mem_cons, List.mem_cons, List.mem_singleton] at foreign
  revert member
  cases u.kind <;>
    simp only [hopShape, List.map_cons, List.map_nil, List.mem_cons,
      List.not_mem_nil, or_false]
  · rintro (rfl | rfl | rfl) <;> rw [diverges_cons] <;> intro same <;>
      simp [← same] at foreign
  · rintro (rfl | rfl) <;> rw [diverges_cons] <;> intro same <;>
      simp [← same] at foreign
  · rintro rfl
    rw [diverges_cons]
    intro same
    simp [← same] at foreign

/-- A move leaves a route that has nothing but rows, or has another row. -/
def MovesCleanly (rows : List (StaticRoute Num)) (root : Cfg)
    (u : StaticRouteUpdate Num) : Prop :=
  ∀ o, u.original = some o → o ≠ u.toHopId → Sheltered rows root o

theorem branches_saved_iff :
    (∀ family destination, ∀ key ∉ rowKeys,
      subtree (routeBase family destination ++ [key])
          (afterSave numerals locale kinds root u) =
        subtree (routeBase family destination ++ [key]) root) ↔
      MovesCleanly (fetchStaticRoutes numerals locale root) root u := by
  have wrote : ∀ family destination, ∀ key ∉ rowKeys,
      subtree (routeBase family destination ++ [key])
          (afterSave numerals locale kinds root u) =
        subtree (routeBase family destination ++ [key])
          (afterMove numerals locale kinds root u) := by
    intro family destination key foreign
    exact subtree_save_of_diverges
      (hopPath_diverges_key _ _ _ (not_mem_hopKeys foreign))
      (descriptionPath_diverges_key _ _ _ foreign)
  cases moves : u.moved with
  | false =>
      have clean : MovesCleanly (fetchStaticRoutes numerals locale root)
          root u := by
        intro o original moved
        rw [← moved_iff original, moves] at moved
        cases moved
      refine iff_of_true (fun family destination key foreign => ?_) clean
      rw [wrote _ _ _ foreign, afterMove_of_stays moves]
  | true =>
      obtain ⟨o, original, moved⟩ := exists_original moves
      have one : MovesCleanly (fetchStaticRoutes numerals locale root) root u ↔
          Sheltered (fetchStaticRoutes numerals locale root) root o := by
        simp [MovesCleanly, original, moved]
      rw [one, ← subtree_drop_branch_iff, ← afterMove_of_moved original moved]
      refine forall₂_congr fun family destination =>
        forall₂_congr fun key foreign => ?_
      rw [wrote _ _ _ foreign]

theorem tidy_saved (schema : RouteSchema kinds) (conforms : Conforms kinds root)
    (submitted : Submitted numerals (fetchStaticRoutes numerals locale root) u)
    {id : HopId} (member : id ∈ u.ids) :
    subtree id.base (afterSave numerals locale kinds root u) ≠
      some (.node []) := by
  have target : ∀ other : HopId, other.family = u.family →
      other.destination = u.destination →
      subtree other.base (afterSave numerals locale kinds root u) ≠
        some (.node []) := by
    intro other family destination empty
    have there := subtree_afterHop schema conforms submitted
    rw [← subtree_save_hop, hopPath, subtree_append, HopId.base, ← family,
      ← destination, empty, Option.bind_some, subtree_of_leaf rfl] at there
    · cases there
    · cases u.kind <;> simp [hopLeaf]
  by_cases route : u.family = id.family ∧ u.destination = id.destination
  · exact target id route.1.symm route.2.symm
  · rw [StaticRouteUpdate.ids, List.mem_cons, Option.mem_toList] at member
    rcases member with rfl | original
    · exact absurd ⟨rfl, rfl⟩ route
    · have moved : id ≠ u.toHopId := by
        rintro rfl
        exact route ⟨rfl, rfl⟩
      have apart := routeBase_diverges route
      obtain ⟨row, listed, rfl⟩ := submitted.original _ original
      rw [subtree_save_of_diverges
        (by simpa [hopPath] using apart.append (hopLeaf u.kind u.via) [])
        (by simpa using apart.append ["description"] []),
        afterMove_of_moved original moved]
      exact tidy_drop schema conforms
        ((mem_fetchStaticRoutes schema conforms row).mp listed).1

theorem subtree_save_elsewhere
    {probe : Path} (elsewhere : ∀ id ∈ u.ids, Diverges id.base probe) :
    subtree probe (afterSave numerals locale kinds root u) =
      subtree probe root := by
  have here : Diverges u.base probe := elsewhere _ List.mem_cons_self
  rw [subtree_save_of_diverges
    (by simpa [hopPath] using here.append (hopLeaf u.kind u.via) [])
    (by simpa using here.append ["description"] [])]
  cases moves : u.moved with
  | false => rw [afterMove_of_stays moves]
  | true =>
      obtain ⟨o, original, moved⟩ := exists_original moves
      rw [afterMove_of_moved original moved]
      refine subtree_drop_of_diverges (elsewhere o ?_)
      simp [StaticRouteUpdate.ids, original]

theorem rowApplied_iff (schema : RouteSchema kinds)
    (conforms : Conforms kinds root)
    (submitted : Submitted numerals (fetchStaticRoutes numerals locale root) u) :
    RowApplied numerals locale root (afterSave numerals locale kinds root u) u ↔
      MovesCleanly (fetchStaticRoutes numerals locale root) root u ∧
        DescriptionKnown (fetchStaticRoutes numerals locale root) root u := by
  have after : Conforms kinds (afterSave numerals locale kinds root u) :=
    conforms.executeAll
  constructor
  · intro applied
    refine ⟨branches_saved_iff.mp applied.beside.branches,
      (description_saved schema conforms submitted).mp ?_⟩
    have listed := applied.rows.mem_iff.mpr List.mem_cons_self
    have shown := ((mem_fetchStaticRoutes schema after _).mp listed).2
    rw [toHopId_desired] at shown
    obtain ⟨hop, _, same⟩ := Option.map_eq_some_iff.mp shown
    exact congrArg StaticRoute.description same
  · rintro ⟨clean, known⟩
    exact ⟨rows_saved schema conforms submitted known,
      fun stays key foreign =>
        settings_saved schema conforms submitted stays foreign,
      fun other proper outside =>
        subtree_save_other schema conforms submitted proper outside,
      branches_saved_iff.mpr clean,
      fun probe elsewhere => subtree_save_elsewhere elsewhere,
      fun id member => tidy_saved schema conforms submitted member⟩

end Saving

/-! ## From the form -/

section Form

variable [NatCast Num] [LE Num] [DecidableLE Num]
  {initial : Option (StaticRoute Num)} {form : StaticRouteForm}
  {family : RouteFamily} {u : StaticRouteUpdate Num}

theorem submitDistance_reads {text : String} {distance : Option Num}
    (submits : submitDistance numerals text = .ok distance) :
    ∀ num, distance = some num →
      numerals.number (numerals.string num) = some num := by
  rintro num rfl
  unfold submitDistance at submits
  split at submits
  · cases submits
  · split at submits
    · split at submits
      · rename_i reads _
        cases submits
        exact numerals.number_string reads
      · cases submits
    · cases submits

/-- What the form submits for a row that is listed, or for a new one. -/
theorem submitted_of_submit {rows : List (StaticRoute Num)}
    (listed : ∀ row, initial = some row → row ∈ rows ∧ row.family = family)
    (submits : submitStaticRoute numerals family initial rows form = .ok u) :
    Submitted numerals rows u := by
  unfold submitStaticRoute at submits
  dsimp only at submits
  obtain ⟨_, submits⟩ := refuse_eq_ok.mp submits
  obtain ⟨_, submits⟩ := refuse_eq_ok.mp submits
  obtain ⟨_, submits⟩ := refuse_eq_ok.mp submits
  split at submits
  · cases submits
  · rename_i distance reads
    obtain ⟨free, built⟩ := refuse_eq_ok.mp submits
    cases built
    refine ⟨?_, ?_, ?_, ?_, submitDistance_reads reads⟩
    · cases kind : form.kind <;> simp [HopId.Proper]
    · intro o original
      obtain ⟨row, opened, rfl⟩ := Option.map_eq_some_iff.mp original
      exact ⟨row, (listed row opened).1, rfl⟩
    · intro row member same
      rw [← same]
      have mine : initial.any (fun i => row.destination = i.destination &&
          row.kind = i.kind && row.via = i.via) = true := by
        by_contra other
        refine free (List.any_eq_true.mpr ⟨row, member, ?_⟩)
        rw [Bool.not_eq_true] at other
        rw [other, congrArg HopId.family same, congrArg HopId.destination same,
          congrArg HopId.kind same, congrArg HopId.via same]
        simp
      cases opened : initial with
      | none => simp [opened] at mine
      | some i =>
          have families := (listed i opened).2
          rw [opened, Option.any_some, Bool.and_eq_true, Bool.and_eq_true,
            decide_eq_true_eq, decide_eq_true_eq, decide_eq_true_eq] at mine
          obtain ⟨⟨destination, kind⟩, via⟩ := mine
          have family := congrArg HopId.family same
          exact congrArg some (HopId.ext (families.trans family.symm)
            destination.symm kind.symm via.symm)
    · intro kind
      exact if_neg kind

/-- Rows are independent exactly when what no row shows of a route that goes
is nothing, and a description no row showed is not taken over. -/
theorem staticRoutes_independent_iff (schema : RouteSchema kinds)
    (conforms : Conforms kinds root) :
    (∀ row ∈ fetchStaticRoutes numerals locale root,
      RowDeleted numerals locale root (executeAll kinds
          (deleteStaticRoute (fetchStaticRoutes numerals locale root) row)
          root) row ↔
        Sheltered (fetchStaticRoutes numerals locale root) root
          row.toHopId) ∧
    ∀ (family : RouteFamily) (initial : Option (StaticRoute Num))
      (form : StaticRouteForm) (u : StaticRouteUpdate Num),
      (∀ row, initial = some row →
        row ∈ fetchStaticRoutes numerals locale root ∧ row.family = family) →
      submitStaticRoute numerals family initial
          (fetchStaticRoutes numerals locale root) form = .ok u →
      (RowApplied numerals locale root (executeAll kinds
          (applyStaticRoute numerals (fetchStaticRoutes numerals locale root)
            u) root) u ↔
        MovesCleanly (fetchStaticRoutes numerals locale root) root u ∧
          DescriptionKnown (fetchStaticRoutes numerals locale root) root u) :=
  ⟨fun _ member => rowDeleted_iff schema conforms member,
    fun _ _ _ _ listed submits =>
      rowApplied_iff schema conforms (submitted_of_submit listed submits)⟩

end Form

/-! ## A route that also rejects -/

def routeKinds : Kinds String
  | ["protocols", "static", _, _, "description"] => .single
  | ["protocols", "static", _, _, _, _, "disable"] => .valueless
  | ["protocols", "static", _, _, _, _, "distance"] => .single
  | ["protocols", "static", _, _, _, _, "interface"] => .single
  | ["protocols", "static", _, _, "blackhole", "distance"] => .single
  | _ => .node

theorem routeSchema : RouteSchema routeKinds where
  routes family destination := ⟨rfl, rfl, rfl, rfl, trivial⟩
  body family destination := of_decide_eq_true rfl
  hops id := by
    obtain ⟨family, destination, kind, via⟩ := id
    cases kind <;> exact of_decide_eq_true rfl
  hopBody id := by
    obtain ⟨family, destination, kind, via⟩ := id
    cases kind <;> exact of_decide_eq_true rfl

/-- One next-hop, beside a `reject`. -/
def rejecting : Cfg :=
  .node [("protocols", .node [("static", .node [("route", .node
    [("10.0.0.0/8", .node
      [("description", .value "lab"),
        ("next-hop", .node [("192.0.2.1", .node [])]),
        ("reject", .node [("distance", .node [("20", .node [])])])])])])])]

def rejectingRow : StaticRoute Nat :=
  { family := .ipv4
    destination := "10.0.0.0/8"
    kind := .gateway
    via := some "192.0.2.1"
    interface := none
    distance := none
    enabled := true
    description := some "lab" }

theorem conforms_rejecting : Conforms routeKinds rejecting :=
  conforms_of_check rfl (by decide +kernel)

/-- The only row of its route. -/
theorem rejecting_independent_iff :
    RowDeleted decimals anyOrder rejecting (executeAll routeKinds
        (deleteStaticRoute (fetchStaticRoutes decimals anyOrder rejecting)
          rejectingRow) rejecting) rejectingRow ↔
      Sheltered (fetchStaticRoutes decimals anyOrder rejecting) rejecting
        rejectingRow.toHopId :=
  (staticRoutes_independent_iff routeSchema conforms_rejecting).1 rejectingRow
    (by decide +kernel)

/-- Deleting the next-hop deletes the `reject` of its destination. -/
theorem reject_deleted :
    rejectingRow ∈ fetchStaticRoutes decimals anyOrder rejecting ∧
      deleteStaticRoute (fetchStaticRoutes decimals anyOrder rejecting)
          rejectingRow =
        [.delete (routeBase .ipv4 "10.0.0.0/8")] ∧
      ¬ RowDeleted decimals anyOrder rejecting (executeAll routeKinds
        (deleteStaticRoute (fetchStaticRoutes decimals anyOrder rejecting)
          rejectingRow) rejecting) rejectingRow := by
  refine ⟨by decide +kernel, by decide +kernel, fun deleted => ?_⟩
  have kept := deleted.beside.branches .ipv4 "10.0.0.0/8" "reject"
    (by decide)
  revert kept
  decide +kernel

end QuartzFire.Routing
