import QuartzFire.Firewall.Reorder

/-!
# What the serialized commands rebuild

A leaf whose string is empty is written as one without a value, which a leaf
that takes a value does not take.  Everything else is rebuilt as it was.
-/

namespace QuartzFire.Firewall

open ConfigTree

mutual

/-- The tree as it is written, an empty leaf as one without a value. -/
def bare : Cfg → Cfg
  | .value text => if text = "" then .null else .value text
  | .node entries => .node (bareEntries entries)
  | .values texts => .values texts
  | .scalar text => .scalar text
  | .null => .null

def bareEntries : List (String × Cfg) → List (String × Cfg)
  | [] => []
  | (key, tree) :: rest => (key, bare tree) :: bareEntries rest

end

mutual

/-- The tree without its empty leaves. -/
def filledPart : Cfg → Cfg
  | .node entries => .node (filledEntries entries)
  | .value text => .value text
  | .values texts => .values texts
  | .scalar text => .scalar text
  | .null => .null

def filledEntries : List (String × Cfg) → List (String × Cfg)
  | [] => []
  | (key, tree) :: rest =>
      if tree = .value "" then filledEntries rest
      else (key, filledPart tree) :: filledEntries rest

end

/-! ## The commands -/

mutual

theorem cfgToCommands_bare (base : Path) : (entries : List (String × Cfg)) →
    cfgToCommands base (.node entries) = buildAt base (bare (.node entries))
  | [] => by
      rw [cfgToCommands] <;> simp [bare, bareEntries, buildAt, leafPaths]
  | (key, tree) :: rest => by
      rw [cfgToCommands, entriesToCommands_bare base ((key, tree) :: rest)]
      rw [bare, bareEntries, buildAt, leafPaths]

theorem entriesToCommands_bare (base : Path) :
    (entries : List (String × Cfg)) →
      entriesToCommands base entries =
        (entryPaths (bareEntries entries)).map fun path => .set (base ++ path)
  | [] => rfl
  | (key, .value text) :: rest => by
      rw [entriesToCommands, entriesToCommands_bare base rest]
      by_cases empty : text = "" <;>
        simp [bareEntries, bare, entryPaths, leafPaths, empty]
  | (key, .values texts) :: rest => by
      rw [entriesToCommands, entriesToCommands_bare base rest]
      simp [bareEntries, bare, entryPaths, leafPaths]
  | (key, .scalar text) :: rest => by
      rw [entriesToCommands, entriesToCommands_bare base rest]
      simp [bareEntries, bare, entryPaths, leafPaths]
  | (key, .node entries) :: rest => by
      rw [entriesToCommands, entriesToCommands_bare base rest,
        cfgToCommands_bare (base ++ [key]) entries]
      simp [bareEntries, buildAt, entryPaths]
  | (key, .null) :: rest => by
      rw [entriesToCommands, entriesToCommands_bare base rest]
      simp [bareEntries, bare, entryPaths, leafPaths]

end

/-! ## Their execution -/

/-- The entry's commands write it after the entries there are, unless it is an
empty leaf. -/
def Refills (kinds : Kinds String) (key : String) (tree : Cfg) : Prop :=
  ∀ entries : List (String × Cfg), key ∉ entries.map Prod.fst →
    executeAll kinds ((leafPaths (bare tree)).map fun path =>
      .set (key :: path)) (.node entries) =
        .node (entries ++ filledEntries [(key, tree)])

theorem filledEntries_cons (entry : String × Cfg)
    (entries : List (String × Cfg)) :
    filledEntries (entry :: entries) =
      filledEntries [entry] ++ filledEntries entries := by
  rw [filledEntries, filledEntries]
  split <;> rfl

theorem names_filledEntries (entries : List (String × Cfg)) :
    ((filledEntries entries).map Prod.fst).Sublist (entries.map Prod.fst) := by
  induction entries with
  | nil => exact List.Sublist.refl _
  | cons entry entries ih =>
      rw [filledEntries]
      split
      · exact ih.cons _
      · exact ih.cons_cons _

theorem executeAll_bareEntries {kinds : Kinds String}
    (written entries : List (String × Cfg))
    (distinct : ((written ++ entries).map Prod.fst).Nodup)
    (refill : ∀ entry ∈ entries, Refills kinds entry.1 entry.2) :
    executeAll kinds ((entryPaths (bareEntries entries)).map .set)
      (.node written) = .node (written ++ filledEntries entries) := by
  induction entries generalizing written with
  | nil => simp [bareEntries, entryPaths, executeAll, filledEntries]
  | cons entry entries ih =>
      have fresh : entry.1 ∉ written.map Prod.fst := by
        intro member
        rw [List.map_append, List.nodup_append] at distinct
        exact distinct.2.2 _ member _ (by simp) rfl
      have first := refill entry (by simp) written fresh
      have still : ((written ++ filledEntries [entry] ++ entries).map
          Prod.fst).Nodup := by
        refine distinct.sublist ?_
        rw [List.append_assoc, List.map_append, List.map_append,
          List.map_append]
        exact (List.Sublist.refl _).append
          ((names_filledEntries [entry]).append (List.Sublist.refl _))
      rw [bareEntries, entryPaths, List.map_append, executeAll_append,
        List.map_map, Function.comp_def, first,
        ih _ still (fun other member => refill other (by simp [member])),
        filledEntries_cons entry entries, List.append_assoc]

theorem leafPaths_bare_node_ne_nil {entries : List (String × Cfg)}
    (each : ∀ entry ∈ entries, leafPaths (bare entry.2) ≠ []) :
    leafPaths (bare (.node entries)) ≠ [] := by
  cases entries with
  | nil => simp [bare, bareEntries, leafPaths]
  | cons entry entries =>
      have first := each entry (by simp)
      simpa [bare, bareEntries, leafPaths, entryPaths] using
        fun empty => absurd empty first

theorem leafPaths_bare_ne_nil {kinds : Kinds String} {key : String}
    {tree : Cfg} (fits : Fits kinds key tree) : leafPaths (bare tree) ≠ [] := by
  induction fits with
  | single | one =>
      rw [bare]
      split <;> simp [leafPaths]
  | node _ _ _ ih => exact leafPaths_bare_node_ne_nil ih
  | _ => simp [bare, bareEntries, leafPaths]

/-- A leaf that takes a value does not take none. -/
theorem refills_empty {kinds : Kinds String} {key : String}
    (takes : kinds [key] = .single ∨ kinds [key] = .multi) :
    Refills kinds key (.value "") := by
  intro entries _
  have unchanged : ConfigTree.set kinds [key] (.node entries) = .node entries := by
    rcases takes with single | multi
    · simp [ConfigTree.set, single]
    · simp [ConfigTree.set, multi]
  simp [bare, leafPaths, executeAll, execute, filledEntries, unchanged]

theorem refills_value {kinds : Kinds String} {key text : String}
    (fits : Fits kinds key (.value text))
    (takes : kinds [key] = .single ∨ kinds [key] = .multi) :
    Refills kinds key (.value text) := by
  by_cases empty : text = ""
  · rw [empty]
    exact refills_empty takes
  · intro entries fresh
    rw [bare, if_neg empty, fits.rebuilds entries fresh]
    simp [filledEntries, filledPart, empty]

theorem executeAll_bare_body {kinds : Kinds String}
    {below : List (String × Cfg)} (distinct : (below.map Prod.fst).Nodup)
    (refill : ∀ entry ∈ below, Refills kinds entry.1 entry.2) :
    executeAll kinds ((leafPaths (bare (.node below))).map .set) (.node []) =
      .node (filledEntries below) := by
  cases below with
  | nil =>
      simp [bare, bareEntries, leafPaths, executeAll, execute,
        ConfigTree.set, filledEntries]
  | cons entry below =>
      rw [bare, bareEntries, leafPaths]
      exact executeAll_bareEntries [] (entry :: below) distinct refill

theorem refills_of_fits {kinds : Kinds String} {key : String} {tree : Cfg}
    (fits : Fits kinds key tree) : Refills kinds key tree := by
  induction fits with
  | valueless isValueless =>
      intro entries fresh
      rw [bare, bareEntries, (Fits.valueless isValueless).rebuilds entries fresh]
      simp [filledEntries, filledPart]
  | single isSingle => exact refills_value (.single isSingle) (.inl isSingle)
  | one isMulti => exact refills_value (.one isMulti) (.inr isMulti)
  | several isMulti distinct =>
      intro entries fresh
      rw [bare, (Fits.several isMulti distinct).rebuilds entries fresh]
      simp [filledEntries, filledPart]
  | node isNode distinct children ih =>
      rename_i kinds key below
      intro entries fresh
      have present := leafPaths_bare_ne_nil (Fits.node isNode distinct children)
      rw [executeAll_below isNode present, child, entries_node,
        findEntry_of_absent fresh, Option.getD_none,
        executeAll_bare_body distinct ih, put, entries_node,
        putEntry_of_absent fresh]
      simp [filledEntries, filledPart]

/-! ## What is lost -/

theorem filledEntries_eq_iff {entries : List (String × Cfg)} :
    filledEntries entries = entries ↔
      ∀ entry ∈ entries, entry.2 ≠ .value "" ∧ filledPart entry.2 = entry.2 := by
  induction entries with
  | nil => simp [filledEntries]
  | cons entry entries ih =>
      rw [filledEntries, List.forall_mem_cons, ← ih]
      by_cases empty : entry.2 = .value ""
      · rw [if_pos empty]
        constructor
        · intro same
          have shorter := (names_filledEntries entries).length_le
          rw [same] at shorter
          simp at shorter
        · rintro ⟨⟨filled, _⟩, _⟩
          exact absurd empty filled
      · rw [if_neg empty, List.cons.injEq, Prod.ext_iff]
        simp [empty]

/-- No leaf below the tree's own place is empty. -/
def FilledBelow (cfg : Cfg) : Prop :=
  ∀ name path, subtree (name :: path) cfg ≠ some (.value "")

theorem filledBelow_of_leaf {cfg : Cfg} (leaf : cfg.entries = []) :
    FilledBelow cfg := by
  intro name path
  rw [subtree, child, leaf, findEntry, Option.bind_none]
  simp

theorem filledPart_node_iff {below : List (String × Cfg)}
    (distinct : (below.map Prod.fst).Nodup)
    (each : ∀ entry ∈ below,
      filledPart entry.2 = entry.2 ↔ FilledBelow entry.2) :
    filledPart (.node below) = .node below ↔ FilledBelow (.node below) := by
  have reach : ∀ entry ∈ below, ∀ path,
      subtree (entry.1 :: path) (.node below) = subtree path entry.2 := by
    intro entry member path
    rw [subtree, child, entries_node,
      (findEntry_eq_some_iff distinct).mpr member, Option.bind_some]
  rw [filledPart, ConfigTree.node.injEq, filledEntries_eq_iff]
  constructor
  · intro filled name path found
    rw [subtree, Option.bind_eq_some_iff] at found
    obtain ⟨tree, member, found⟩ := found
    rw [child, entries_node, findEntry_eq_some_iff distinct] at member
    obtain ⟨different, same⟩ := filled _ member
    cases path with
    | nil => exact different (Option.some.inj found)
    | cons next path => exact (each _ member).mp same next path found
  · intro filled entry member
    constructor
    · intro empty
      apply filled entry.1 []
      rw [reach entry member, empty, subtree]
    · refine (each entry member).mpr fun name path => ?_
      rw [← reach entry member]
      exact filled entry.1 (name :: path)

theorem filledPart_eq_iff {kinds : Kinds String} {key : String}
    {cfg : Cfg} (fits : Fits kinds key cfg) :
    filledPart cfg = cfg ↔ FilledBelow cfg := by
  induction fits with
  | node _ distinct _ ih => exact filledPart_node_iff distinct ih
  | valueless _ =>
      simpa [filledPart, filledEntries] using filledBelow_of_leaf rfl
  | single _ | one _ | several _ _ =>
      simpa [filledPart] using filledBelow_of_leaf rfl

/-- The commands of a subtree, executed where nothing or an empty node is, give
the subtree without its empty leaves, which is the same subtree exactly if it
has none. -/
theorem cfgToCommands_rebuilds {kinds : Kinds String} {base : Path}
    (nodes : NodePath kinds base) {cfg root : Cfg}
    (conforms : Conforms (kinds.below base) cfg)
    (empty : (subtree base root).getD (.node []) = .node []) :
    subtree base (executeAll kinds (cfgToCommands base cfg) root) =
        some (filledPart cfg) ∧
      (subtree base (executeAll kinds (cfgToCommands base cfg) root) =
        some cfg ↔ Filled cfg) := by
  obtain ⟨entries, rfl⟩ : ∃ entries, cfg = .node entries :=
    ⟨_, conforms.isNode⟩
  have distinct : (entries.map Prod.fst).Nodup := conforms.distinct
  have rebuilt : subtree base (executeAll kinds
      (cfgToCommands base (.node entries)) root) =
        some (filledPart (.node entries)) := by
    have present : leafPaths (bare (.node entries)) ≠ [] :=
      leafPaths_bare_node_ne_nil fun entry member =>
        leafPaths_bare_ne_nil (conforms.fits entry member)
    rw [cfgToCommands_bare, buildAt, subtree_sets_below nodes present, empty,
      executeAll_bare_body distinct fun entry member =>
        refills_of_fits (conforms.fits entry member), filledPart]
  refine ⟨rebuilt, ?_⟩
  rw [rebuilt, Option.some.injEq, filledPart_node_iff distinct
    fun entry member => filledPart_eq_iff (conforms.fits entry member)]
  constructor
  · intro filled path
    cases path with
    | nil => simp [subtree]
    | cons name path => exact filled name path
  · intro filled name path
    exact filled (name :: path)

/-- An empty description is not written back. -/
theorem empty_description_lost :
    ∃ (kinds : Kinds String) (base : Path) (cfg : Cfg), NodePath kinds base ∧
      Conforms (kinds.below base) cfg ∧
      subtree base (executeAll kinds (cfgToCommands base cfg) (.node [])) ≠
        some cfg := by
  let kinds : Kinds String := fun path =>
    if path.length ≤ 2 then .node else .single
  refine ⟨kinds, ["rule", "10"],
    .node [("action", .value "accept"), ("description", .value "")],
    ⟨rfl, rfl, trivial⟩, ⟨rfl, by decide, ?_⟩, by decide⟩
  intro entry member
  simp only [entries_node, List.mem_cons, List.not_mem_nil, or_false] at member
  rcases member with rfl | rfl
  · exact .single rfl
  · exact .single rfl

theorem cfgToCommands_rebuilds_rule :
    let kinds : Kinds String := fun path =>
      if path.length ≤ 1 then .node else .single
    let cfg : Cfg := .node [("action", .value "accept")]
    subtree ["10"] (executeAll kinds (cfgToCommands ["10"] cfg) (.node [])) =
      some cfg := by
  intro kinds cfg
  have conforms : Conforms (kinds.below ["10"]) cfg := by
    refine ⟨rfl, by decide, ?_⟩
    intro entry member
    obtain rfl : entry = ("action", .value "accept") := by
      simpa [cfg] using member
    exact .single rfl
  have nodes : NodePath kinds ["10"] := ⟨rfl, trivial⟩
  exact (cfgToCommands_rebuilds nodes conforms rfl).1

end QuartzFire.Firewall
