import Mathlib.Data.List.Nodup
import QuartzFire.Foundation.ConfigRebuild

/-!
# Editing keeps a configuration conforming

Commands never leave a configuration a device would not render: names stay
distinct, and what is written is of the kind the schema asks for.
-/

namespace QuartzFire

namespace ConfigTree

variable {Name : Type} {kinds : Kinds Name}

theorem Conforms.empty : Conforms kinds (.node []) :=
  ⟨rfl, List.nodup_nil, by simp⟩

/-- A conforming configuration as the entry of a node. -/
theorem Fits.ofConforms {key : Name} {tree : ConfigTree Name}
    (isNode : kinds [key] = .node)
    (conforms : Conforms (kinds.below [key]) tree) : Fits kinds key tree := by
  rw [conforms.isNode]
  exact .node isNode conforms.distinct conforms.fits

theorem Fits.oneValue {key : Name} {old : Option (ConfigTree Name)}
    (isSingle : kinds [key] = .single)
    (fits : ∀ tree, old = some tree → Fits kinds key tree) (text : Name) :
    Fits kinds key (oneValue old text) := by
  unfold ConfigTree.oneValue
  split
  · rename_i entries
    exact fits _ rfl
  · exact .single isSingle

variable [DecidableEq Name]

theorem keys_putEntry (key : Name) (tree : ConfigTree Name)
    (entries : List (Name × ConfigTree Name)) :
    (putEntry key tree entries).map Prod.fst =
      if key ∈ entries.map Prod.fst then entries.map Prod.fst
      else entries.map Prod.fst ++ [key] := by
  induction entries with
  | nil => simp [putEntry]
  | cons entry entries ih =>
      rw [putEntry]
      split
      · rename_i same
        simp [same]
      · rename_i different
        rw [List.map_cons, ih, List.map_cons]
        have iff : key ∈ entry.1 :: entries.map Prod.fst ↔
            key ∈ entries.map Prod.fst := by
          rw [List.mem_cons, or_iff_right (Ne.symm different)]
        split
        · rename_i present
          exact (if_pos (iff.mpr present)).symm
        · rename_i absent
          exact (if_neg (absent ∘ iff.mp)).symm

theorem mem_putEntry {key : Name} {tree : ConfigTree Name}
    {entries : List (Name × ConfigTree Name)} {entry : Name × ConfigTree Name}
    (member : entry ∈ putEntry key tree entries) :
    entry = (key, tree) ∨ entry ∈ entries := by
  induction entries with
  | nil => exact .inl (by simpa [putEntry] using member)
  | cons first entries ih =>
      rw [putEntry] at member
      split at member
      · exact (List.mem_cons.mp member).imp id (List.mem_cons_of_mem _)
      · rcases List.mem_cons.mp member with same | inside
        · exact .inr (same ▸ List.mem_cons_self)
        · exact (ih inside).imp id (List.mem_cons_of_mem _)

/-- Replacing an entry by one that fits. -/
theorem Conforms.put {tree entry : ConfigTree Name} {key : Name}
    (conforms : Conforms kinds tree) (fits : Fits kinds key entry) :
    Conforms kinds (tree.put key entry) where
  isNode := rfl
  distinct := by
    rw [ConfigTree.put, entries_node, keys_putEntry]
    split
    · exact conforms.distinct
    · rename_i absent
      simpa using List.Nodup.concat absent conforms.distinct
  fits := by
    intro other member
    rcases mem_putEntry member with rfl | inside
    · exact fits
    · exact conforms.fits other inside

theorem Conforms.erase {tree : ConfigTree Name} (key : Name)
    (conforms : Conforms kinds tree) : Conforms kinds (tree.erase key) := by
  cases tree with
  | node entries =>
      refine ⟨rfl, ?_, ?_⟩
      · exact (List.filter_sublist.map _).nodup conforms.distinct
      · intro entry member
        exact conforms.fits entry (List.mem_of_mem_filter member)
  | _ => exact conforms

/-- The entry of a conforming configuration fits. -/
theorem Conforms.fits_child {tree child : ConfigTree Name} {key : Name}
    (conforms : Conforms kinds tree) (found : tree.child key = some child) :
    Fits kinds key child :=
  conforms.fits (key, child) (conforms.mem_entries.mpr found)

theorem Fits.addValue {key : Name} {old : Option (ConfigTree Name)}
    (isMulti : kinds [key] = .multi)
    (fits : ∀ tree, old = some tree → Fits kinds key tree) (text : Name) :
    Fits kinds key (addValue old text) := by
  unfold ConfigTree.addValue
  split
  · exact fits _ rfl
  · split
    · exact .one isMulti
    · rename_i different
      exact .several isMulti (by simpa using different)
  · rename_i olds
    split
    · exact fits _ rfl
    · rename_i fresh
      have several := fits _ rfl
      cases several with
      | several _ distinct =>
          refine .several isMulti ?_
          simpa using List.Nodup.concat fresh distinct
  · exact .one isMulti

/-- One value less is still a value or several. -/
theorem Fits.dropValue {key text : Name} {leaf left : ConfigTree Name}
    (fits : Fits kinds key leaf) (dropped : dropValue text leaf = some left) :
    Fits kinds key left := by
  cases fits with
  | valueless isValueless =>
      cases dropped
      exact .valueless isValueless
  | single isSingle =>
      simp only [ConfigTree.dropValue, Option.ite_none_left_eq_some] at dropped
      cases dropped.2
      exact .single isSingle
  | one isMulti =>
      simp only [ConfigTree.dropValue, Option.ite_none_left_eq_some] at dropped
      cases dropped.2
      exact .one isMulti
  | several isMulti distinct =>
      have fewer := (List.filter_sublist (p := (· ≠ text))).nodup distinct
      simp only [ConfigTree.dropValue] at dropped
      generalize List.filter (· ≠ text) _ = remaining at dropped fewer
      rcases remaining with _ | ⟨first, _ | ⟨second, rest⟩⟩
      · cases dropped
      · cases dropped
        exact .one isMulti
      · cases dropped
        exact .several isMulti fewer
  | node isNode distinct children =>
      cases dropped
      exact .node isNode distinct children

theorem Conforms.set {path : List Name} {tree : ConfigTree Name}
    (conforms : Conforms kinds tree) : Conforms kinds (set kinds path tree) := by
  induction path generalizing kinds tree with
  | nil => exact conforms
  | cons key path ih =>
      have old : ∀ child, tree.child key = some child → Fits kinds key child :=
        fun child found => conforms.fits_child found
      unfold ConfigTree.set
      split
      · rename_i isValueless
        exact conforms.put (.valueless isValueless)
      · rename_i isSingle
        exact conforms.put (.oneValue isSingle old _)
      · rename_i isMulti
        exact conforms.put (.addValue isMulti old _)
      · rename_i isNode
        refine conforms.put (.ofConforms isNode (ih ?_))
        cases found : tree.child key with
        | none => exact .empty
        | some child =>
            have fits := old child found
            cases fits with
            | valueless isValueless => simp_all
            | single isSingle => simp_all
            | one isMulti => simp_all
            | several isMulti => simp_all
            | node _ distinct children => exact ⟨rfl, distinct, children⟩
      · exact conforms

theorem Conforms.delete {path : List Name} {tree : ConfigTree Name}
    (conforms : Conforms kinds tree) : Conforms kinds (delete path tree) := by
  induction path generalizing kinds tree with
  | nil => exact conforms
  | cons key path ih =>
      cases path with
      | nil => exact conforms.erase key
      | cons next rest =>
          rw [ConfigTree.delete]
          split
          · exact conforms
          · rename_i entries found
            have fits := conforms.fits_child found
            refine conforms.put ?_
            have below := ih fits.conforms
            cases fits with
            | valueless isValueless =>
                have same : ConfigTree.delete (next :: rest)
                    (.node ([] : List (Name × ConfigTree Name))) = .node [] := by
                  cases rest <;> rfl
                rw [same]
                exact .valueless isValueless
            | node isNode _ _ => exact .ofConforms isNode below
          · rename_i leaf notNode found
            split
            · rw [dropIn]
              split
              · exact conforms.erase key
              · rename_i left dropped
                exact conforms.put ((conforms.fits_child found).dropValue dropped)
            · exact conforms

theorem Conforms.execute {command : Command Name} {tree : ConfigTree Name}
    (conforms : Conforms kinds tree) :
    Conforms kinds (ConfigTree.execute kinds tree command) := by
  cases command with
  | set path => exact conforms.set
  | delete path => exact conforms.delete

/-- No command breaks the schema. -/
theorem Conforms.executeAll {commands : List (Command Name)}
    {tree : ConfigTree Name} (conforms : Conforms kinds tree) :
    Conforms kinds (executeAll kinds commands tree) := by
  induction commands generalizing tree with
  | nil => exact conforms
  | cons command commands ih =>
      rw [ConfigTree.executeAll, List.foldl_cons]
      exact ih conforms.execute

/-! ## What a batch leaves at a path -/

/-- Setting a leaf of one value leaves that value. -/
theorem Conforms.subtree_set_single {base : List Name} {key : Name}
    {tree : ConfigTree Name} (conforms : Conforms kinds tree)
    (nodes : NodePath kinds base) (isSingle : kinds (base ++ [key]) = .single)
    (text : Name) :
    subtree (base ++ [key]) (ConfigTree.set kinds (base ++ [key, text]) tree) =
      some (.value text) := by
  have isSingle : kinds.below base [key] = .single := isSingle
  rw [subtree_append, subtree_set_append nodes, Option.bind_some,
    subtree_singleton, set_single isSingle, child_put_self]
  cases inside : ((subtree base tree).getD (.node [])).child key with
  | none => rfl
  | some leaf =>
      have atKey : subtree (base ++ [key]) tree = some leaf := by
        rw [subtree_append]
        cases found : subtree base tree with
        | none =>
            rw [found] at inside
            cases inside
        | some node =>
            rw [found] at inside
            rw [Option.bind_some, subtree_singleton]
            exact inside
      have fits := conforms.fits_subtree atKey
      cases fits <;> simp_all [ConfigTree.oneValue]

theorem subtree_set_valueless {base : List Name} {key : Name}
    (nodes : NodePath kinds base)
    (isValueless : kinds (base ++ [key]) = .valueless)
    (tree : ConfigTree Name) :
    subtree (base ++ [key]) (ConfigTree.set kinds (base ++ [key]) tree) =
      some (.node []) := by
  have isValueless : kinds.below base [key] = .valueless := isValueless
  rw [subtree_append, subtree_set_append nodes, Option.bind_some,
    subtree_singleton, set_valueless isValueless, child_put_self]

/-- What is at a path of nodes is a node. -/
theorem Conforms.node_of_nodePath {base : List Name} {tree found : ConfigTree Name}
    (conforms : Conforms kinds tree) (nodes : NodePath kinds base)
    (present : subtree base tree = some found) :
    found = .node found.entries := by
  induction base using List.reverseRecOn with
  | nil =>
      cases present
      exact conforms.isNode
  | append_singleton base key _ =>
      have isNode := nodes.last
      have fits := conforms.fits_subtree present
      cases fits <;> simp_all

theorem subtree_delete_append {base path : List Name} (proper : path ≠ [])
    {tree : ConfigTree Name} {entries : List (Name × ConfigTree Name)}
    (present : subtree base tree = some (.node entries)) :
    subtree base (ConfigTree.delete (base ++ path) tree) =
      some (ConfigTree.delete path (.node entries)) := by
  induction base generalizing tree with
  | nil =>
      cases present
      rfl
  | cons key base ih =>
      obtain ⟨child, found, below⟩ := Option.bind_eq_some_iff.mp present
      obtain ⟨next, rest, same⟩ := List.exists_cons_of_ne_nil
        (List.append_ne_nil_of_right_ne_nil base proper)
      rw [List.cons_append, same, ConfigTree.delete, found]
      cases child with
      | node children =>
          have inside := ih below
          rw [same] at inside
          dsimp only
          rw [subtree, child_put_self, Option.bind_some, inside]
      | _ =>
          cases base with
          | nil => cases below
          | cons first more =>
              rw [subtree_of_leaf rfl (List.cons_ne_nil first more)] at below
              cases below

/-- A node stays where nothing is deleted but what is below it. -/
theorem Conforms.present_executeAll {base : List Name}
    (nodes : NodePath kinds base) {commands : List (Command Name)}
    (below : ∀ command ∈ commands, Diverges command.path base ∨
      ∃ more, more ≠ [] ∧ command.path = base ++ more)
    {tree : ConfigTree Name} (conforms : Conforms kinds tree)
    (present : (subtree base tree).isSome = true) :
    (subtree base (ConfigTree.executeAll kinds commands tree)).isSome = true := by
  induction commands generalizing tree with
  | nil => exact present
  | cons command commands ih =>
      refine ih (fun other member => below other (by simp [member]))
        conforms.execute ?_
      rcases below command (by simp) with apart | ⟨more, proper, same⟩
      · rwa [subtree_execute_of_diverges apart]
      · obtain ⟨found, here⟩ := Option.isSome_iff_exists.mp present
        cases command with
        | set path =>
            rw [Command.path] at same
            rw [ConfigTree.execute, same, subtree_set_append nodes]
            rfl
        | delete path =>
            rw [Command.path] at same
            rw [conforms.node_of_nodePath nodes here] at here
            rw [ConfigTree.execute, same, subtree_delete_append proper here]
            rfl

/-- Where all commands that touch a path leave the same there, a batch with
one of them leaves that. -/
theorem Conforms.subtree_written {commands : List (Command Name)}
    {probe : List Name} {result : Option (ConfigTree Name)}
    (touch : ∀ command ∈ commands, Diverges command.path probe ∨
      ∀ tree, Conforms kinds tree →
        subtree probe (ConfigTree.execute kinds tree command) = result)
    {tree : ConfigTree Name} (conforms : Conforms kinds tree)
    (written : ∃ command ∈ commands, ¬ Diverges command.path probe) :
    subtree probe (ConfigTree.executeAll kinds commands tree) = result := by
  induction commands using List.reverseRecOn with
  | nil => simp at written
  | append_singleton commands last ih =>
      rw [executeAll_append]
      show subtree probe (ConfigTree.execute kinds _ last) = result
      rcases touch last (by simp) with apart | leaves
      · rw [subtree_execute_of_diverges apart]
        refine ih (fun command member => touch command (by simp [member])) ?_
        obtain ⟨command, member, meets⟩ := written
        rcases List.mem_append.mp member with before | here
        · exact ⟨command, before, meets⟩
        · rw [List.mem_singleton.mp here] at meets
          exact absurd apart meets
      · exact leaves _ conforms.executeAll

end ConfigTree

end QuartzFire
