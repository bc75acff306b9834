import QuartzFire.Foundation.ConfigTree

/-!
# Rebuilding a subtree from its leaves

A subtree that fits the schema is determined by the `set` commands of its
leaves: executed in order on an empty node they give the same subtree, entries
in the same order.
-/

namespace QuartzFire

namespace ConfigTree

variable {Name : Type}

mutual

/-- The paths to write for a tree, one for each leaf value or empty node. -/
def leafPaths : ConfigTree Name → List (List Name)
  | .value text | .scalar text => [[text]]
  | .values texts => texts.map fun text => [text]
  | .null | .node [] => [[]]
  | .node (entry :: entries) => entryPaths (entry :: entries)

def entryPaths : List (Name × ConfigTree Name) → List (List Name)
  | [] => []
  | (key, tree) :: rest => (leafPaths tree).map (key :: ·) ++ entryPaths rest

end

/-- An entry as a device renders it: what it holds is of the schema's kind, no
name occurs twice, and several values are distinct. -/
inductive Fits : Kinds Name → Name → ConfigTree Name → Prop where
  | valueless {kinds : Kinds Name} {key : Name} :
      kinds [key] = .valueless → Fits kinds key (.node [])
  | single {kinds : Kinds Name} {key text : Name} :
      kinds [key] = .single → Fits kinds key (.value text)
  | one {kinds : Kinds Name} {key text : Name} :
      kinds [key] = .multi → Fits kinds key (.value text)
  | several {kinds : Kinds Name} {key first second : Name}
      {texts : List Name} :
      kinds [key] = .multi → (first :: second :: texts).Nodup →
      Fits kinds key (.values (first :: second :: texts))
  | node {kinds : Kinds Name} {key : Name}
      {entries : List (Name × ConfigTree Name)} :
      kinds [key] = .node → (entries.map Prod.fst).Nodup →
      (∀ entry ∈ entries, Fits (kinds.below [key]) entry.1 entry.2) →
      Fits kinds key (.node entries)

theorem leafPaths_ne_nil {kinds : Kinds Name} {key : Name}
    {tree : ConfigTree Name} (fits : Fits kinds key tree) :
    leafPaths tree ≠ [] := by
  induction fits with
  | node _ _ _ ih =>
      rename_i entries _ _ _
      cases entries with
      | nil => simp [leafPaths]
      | cons entry entries =>
          have first := ih entry (by simp)
          simpa [leafPaths, entryPaths] using fun empty => absurd empty first
  | _ => simp [leafPaths]

/-- A whole configuration as a device renders it. -/
structure Conforms (kinds : Kinds Name) (tree : ConfigTree Name) : Prop where
  isNode : tree = .node tree.entries
  distinct : (tree.entries.map Prod.fst).Nodup
  fits : ∀ entry ∈ tree.entries, Fits kinds entry.1 entry.2

theorem Fits.conforms {kinds : Kinds Name} {key : Name}
    {entries : List (Name × ConfigTree Name)}
    (fits : Fits kinds key (.node entries)) :
    Conforms (kinds.below [key]) (.node entries) := by
  cases fits with
  | valueless _ => exact ⟨rfl, by simp, by simp⟩
  | node _ distinct children => exact ⟨rfl, distinct, children⟩

variable [DecidableEq Name]

theorem putEntry_of_absent {key : Name} {tree : ConfigTree Name}
    {entries : List (Name × ConfigTree Name)}
    (absent : key ∉ entries.map Prod.fst) :
    putEntry key tree entries = entries ++ [(key, tree)] := by
  induction entries with
  | nil => rfl
  | cons entry entries ih =>
      rw [List.map_cons, List.mem_cons, not_or] at absent
      rw [putEntry, if_neg (Ne.symm absent.1), ih absent.2, List.cons_append]

theorem findEntry_of_absent {key : Name}
    {entries : List (Name × ConfigTree Name)}
    (absent : key ∉ entries.map Prod.fst) : findEntry key entries = none := by
  induction entries with
  | nil => rfl
  | cons entry entries ih =>
      rw [List.map_cons, List.mem_cons, not_or] at absent
      rw [findEntry, if_neg (Ne.symm absent.1), ih absent.2]

theorem putEntry_putEntry (key : Name) (old new : ConfigTree Name)
    (entries : List (Name × ConfigTree Name)) :
    putEntry key new (putEntry key old entries) = putEntry key new entries := by
  induction entries with
  | nil => simp [putEntry]
  | cons entry entries ih =>
      by_cases same : entry.1 = key
      · simp [putEntry, same]
      · simp [putEntry, same, ih]

theorem put_put (tree old new : ConfigTree Name) (key : Name) :
    (tree.put key old).put key new = tree.put key new := by
  simp only [put, entries_node, putEntry_putEntry]

/-- A batch of writes below one entry, as a single replacement of it. -/
theorem executeAll_below {kinds : Kinds Name} {key : Name}
    (isNode : kinds [key] = .node) {paths : List (List Name)}
    (present : paths ≠ []) (tree : ConfigTree Name) :
    executeAll kinds (paths.map fun path => .set (key :: path)) tree =
      tree.put key (executeAll (kinds.below [key]) (paths.map .set)
        ((tree.child key).getD (.node []))) := by
  induction paths generalizing tree with
  | nil => exact absurd rfl present
  | cons path paths ih =>
      simp only [executeAll] at ih
      simp only [List.map_cons, executeAll, List.foldl_cons, execute]
      rw [set_node isNode]
      cases paths with
      | nil => rfl
      | cons next rest =>
          rw [ih (by simp), put_put, child_put_self]
          rfl

/-- Writing a leaf's values one after the other collects them. -/
theorem executeAll_values {kinds : Kinds Name} {key : Name}
    (isMulti : kinds [key] = .multi) (texts written : List Name)
    (distinct : (written ++ texts).Nodup) (tree : ConfigTree Name)
    (holds : tree.child key = some (.values written)) :
    executeAll kinds (texts.map fun text => .set [key, text]) tree =
      if texts = [] then tree
      else tree.put key (.values (written ++ texts)) := by
  induction texts generalizing tree written with
  | nil => rfl
  | cons text texts ih =>
      have fresh : text ∉ written := by
        intro member
        exact (List.nodup_append.mp distinct).2.2 text member text (by simp) rfl
      have step : set kinds [key, text] tree =
          tree.put key (.values (written ++ [text])) := by
        have added : addValue (tree.child key) text =
            .values (written ++ [text]) := by
          rw [holds]
          exact if_neg fresh
        rw [set_multi isMulti, added]
      simp only [List.map_cons, executeAll, List.foldl_cons, execute, step]
      simp only [executeAll] at ih
      rw [ih (written ++ [text]) (by simpa using distinct) _
        (child_put_self _ _ _)]
      split
      · rename_i last
        simp [last]
      · rw [put_put]
        simp

/-- The entry's own leaf paths write it after the entries there are. -/
def Rebuilds (kinds : Kinds Name) (key : Name) (tree : ConfigTree Name) :
    Prop :=
  ∀ entries : List (Name × ConfigTree Name), key ∉ entries.map Prod.fst →
    executeAll kinds ((leafPaths tree).map fun path => .set (key :: path))
      (.node entries) = .node (entries ++ [(key, tree)])

theorem executeAll_entryPaths {kinds : Kinds Name}
    (written entries : List (Name × ConfigTree Name))
    (distinct : ((written ++ entries).map Prod.fst).Nodup)
    (rebuild : ∀ entry ∈ entries, Rebuilds kinds entry.1 entry.2) :
    executeAll kinds ((entryPaths entries).map .set) (.node written) =
      .node (written ++ entries) := by
  induction entries generalizing written with
  | nil => simp [entryPaths, executeAll]
  | cons entry entries ih =>
      have fresh : entry.1 ∉ written.map Prod.fst := by
        intro member
        rw [List.map_append, List.nodup_append] at distinct
        exact distinct.2.2 _ member _ (by simp) rfl
      rw [entryPaths, List.map_append, executeAll_append, List.map_map]
      have first := rebuild entry (by simp) written fresh
      rw [Function.comp_def, first, ih _ (by simpa using distinct)
        (fun other member => rebuild other (by simp [member]))]
      simp

/-- What fits the schema is rebuilt by its leaf paths. -/
theorem Fits.rebuilds {kinds : Kinds Name} {key : Name}
    {tree : ConfigTree Name} (fits : Fits kinds key tree) :
    Rebuilds kinds key tree := by
  induction fits with
  | valueless isValueless =>
      intro entries fresh
      simp only [leafPaths, List.map_cons, List.map_nil, executeAll,
        List.foldl_cons, List.foldl_nil, execute]
      rw [set_valueless isValueless, put, entries_node,
        putEntry_of_absent fresh]
  | single isSingle =>
      intro entries fresh
      simp only [leafPaths, List.map_cons, List.map_nil, executeAll,
        List.foldl_cons, List.foldl_nil, execute]
      rw [set_single isSingle, child, put, entries_node,
        findEntry_of_absent fresh, putEntry_of_absent fresh, oneValue]
      simp
  | one isMulti =>
      intro entries fresh
      simp only [leafPaths, List.map_cons, List.map_nil, executeAll,
        List.foldl_cons, List.foldl_nil, execute]
      rw [set_multi isMulti, child, put, entries_node,
        findEntry_of_absent fresh, putEntry_of_absent fresh, addValue]
      all_goals simp
  | several isMulti distinct =>
      rename_i kinds key first second texts
      intro entries fresh
      have different : first ≠ second := by
        rintro rfl
        simp at distinct
      have one : set kinds [key, first] (.node entries) =
          (ConfigTree.node entries).put key (.value first) := by
        rw [set_multi isMulti, child, entries_node, findEntry_of_absent fresh,
          addValue]
        all_goals simp
      have two : set kinds [key, second] ((ConfigTree.node entries).put key
          (.value first)) =
            (ConfigTree.node entries).put key (.values [first, second]) := by
        rw [set_multi isMulti, child_put_self, put_put]
        exact congrArg _ (if_neg different)
      have rest := executeAll_values isMulti texts [first, second] distinct
        ((ConfigTree.node entries).put key (.values [first, second]))
        (child_put_self _ _ _)
      simp only [executeAll] at rest
      simp only [leafPaths, List.map_cons, List.map_map, Function.comp_def,
        executeAll, List.foldl_cons, execute, one, two, rest]
      split
      · rename_i last
        rw [last, put, entries_node, putEntry_of_absent fresh]
      · rw [put_put, put, entries_node, putEntry_of_absent fresh]
        rfl
  | node isNode distinct children ih =>
      rename_i kinds key below
      intro entries fresh
      have present : leafPaths (.node below) ≠ [] :=
        leafPaths_ne_nil (.node isNode distinct children)
      have rebuilt : executeAll (kinds.below [key])
          ((leafPaths (.node below)).map .set) (.node []) = .node below := by
        cases below with
        | nil => simp [leafPaths, executeAll, execute, set]
        | cons entry below =>
            rw [leafPaths]
            exact executeAll_entryPaths [] _ distinct ih
      rw [executeAll_below isNode present, child, entries_node,
        findEntry_of_absent fresh, Option.getD_none, rebuilt, put,
        entries_node, putEntry_of_absent fresh]

/-- The body of an entry, rebuilt on its own from an empty node. -/
theorem Fits.rebuild_body {kinds : Kinds Name} {key : Name}
    {tree : ConfigTree Name} (fits : Fits kinds key tree)
    (isNode : kinds [key] = .node) :
    executeAll (kinds.below [key]) ((leafPaths tree).map .set) (.node []) =
      tree := by
  have rebuilt := fits.rebuilds [] (by simp)
  rw [executeAll_below isNode (leafPaths_ne_nil fits), child, entries_node,
    findEntry, Option.getD_none, put, entries_node, putEntry] at rebuilt
  simpa using rebuilt

/-- The writes that build a tree at a path. -/
def buildAt (base : List Name) (tree : ConfigTree Name) : List (Command Name) :=
  (leafPaths tree).map fun path => .set (base ++ path)

/-- A tree built among others at a path that was empty, none on top of
another. -/
theorem subtree_buildAll {kinds : Kinds Name}
    (blocks : List (List Name × ConfigTree Name))
    (apart : blocks.Pairwise fun left right => Diverges left.1 right.1)
    (nodes : ∀ block ∈ blocks, NodePath kinds block.1)
    (rebuilt : ∀ block ∈ blocks, leafPaths block.2 ≠ [] ∧
      executeAll (kinds.below block.1) ((leafPaths block.2).map .set)
        (.node []) = block.2)
    (tree : ConfigTree Name) {block : List Name × ConfigTree Name}
    (member : block ∈ blocks) (absent : subtree block.1 tree = none) :
    subtree block.1 (executeAll kinds
      (blocks.flatMap fun block => buildAt block.1 block.2) tree) =
        some block.2 := by
  induction blocks generalizing tree with
  | nil => cases member
  | cons first blocks ih =>
      rw [List.pairwise_cons] at apart
      rw [List.flatMap_cons, executeAll_append]
      rcases List.mem_cons.mp member with rfl | later
      · have built : subtree block.1 (executeAll kinds
            (buildAt block.1 block.2) tree) = some block.2 := by
          rw [buildAt, subtree_sets_below (nodes block (by simp))
            (rebuilt block (by simp)).1, absent, Option.getD_none,
            (rebuilt block (by simp)).2]
        rw [subtree_executeAll_of_diverges, built]
        intro command written
        obtain ⟨other, inRest, below⟩ := List.mem_flatMap.mp written
        obtain ⟨path, _, rfl⟩ := List.mem_map.mp below
        simpa [Command.path] using (apart.1 other inRest).symm.append path []
      · refine ih apart.2 (fun other inRest => nodes other (by simp [inRest]))
          (fun other inRest => rebuilt other (by simp [inRest])) _ later ?_
        rw [subtree_executeAll_of_diverges, absent]
        intro command written
        obtain ⟨path, _, rfl⟩ := List.mem_map.mp written
        simpa [Command.path] using (apart.1 block later).append path []

/-! ## Conforming configurations -/

theorem findEntry_eq_some_iff {key : Name} {tree : ConfigTree Name}
    {entries : List (Name × ConfigTree Name)}
    (distinct : (entries.map Prod.fst).Nodup) :
    findEntry key entries = some tree ↔ (key, tree) ∈ entries := by
  induction entries with
  | nil => simp [findEntry]
  | cons entry entries ih =>
      rw [List.map_cons, List.nodup_cons] at distinct
      rw [findEntry, List.mem_cons]
      split
      · rename_i same
        have elsewhere : (key, tree) ∉ entries := fun member =>
          distinct.1 (same ▸ List.mem_map_of_mem member)
        rw [Option.some.injEq, or_iff_left elsewhere, ← same]
        exact ⟨fun equal => equal ▸ rfl, fun equal => equal ▸ rfl⟩
      · rename_i different
        rw [ih distinct.2]
        constructor
        · exact .inr
        · rintro (rfl | member)
          · exact absurd rfl different
          · exact member

theorem Conforms.mem_entries {kinds : Kinds Name} {tree : ConfigTree Name}
    (conforms : Conforms kinds tree) {key : Name} {entry : ConfigTree Name} :
    (key, entry) ∈ tree.entries ↔ tree.child key = some entry :=
  (findEntry_eq_some_iff conforms.distinct).symm

/-- What conforms fits its schema at every path. -/
theorem Conforms.fits_subtree {kinds : Kinds Name} {base : List Name} {key : Name}
    {root tree : ConfigTree Name} (conforms : Conforms kinds root)
    (found : subtree (base ++ [key]) root = some tree) :
    Fits (kinds.below base) key tree := by
  induction base generalizing kinds root with
  | nil =>
      rw [List.nil_append, subtree, Option.bind_eq_some_iff] at found
      obtain ⟨entry, member, same⟩ := found
      cases same
      exact conforms.fits _ (conforms.mem_entries.mpr member)
  | cons first base ih =>
      rw [List.cons_append, subtree, Option.bind_eq_some_iff] at found
      obtain ⟨entry, member, below⟩ := found
      have fits := conforms.fits _ (conforms.mem_entries.mpr member)
      cases entry with
      | node entries => exact ih fits.conforms below
      | _ =>
          rw [subtree_of_leaf rfl (by simp)] at below
          cases below

end ConfigTree

end QuartzFire
