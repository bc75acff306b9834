import Mathlib.Tactic.Tauto
import QuartzFire.Foundation.ConfigFootprint

/-!
# Editing one field among others

A field of one value, a flag, the values of a leaf and the names below a node
each have the commands that bring them from what they hold to what they are to
hold.
-/

namespace QuartzFire

namespace ConfigTree

variable {Name : Type} [DecidableEq Name] {kinds : Kinds Name}
  {probe : List Name} {start : Option (ConfigTree Name)}
  {mark weaker : Option (ConfigTree Name) → Prop}
  {commands : List (Command Name)}

/-- From what starts at a path the batch makes something that has the mark. -/
def Yields (kinds : Kinds Name) (probe : List Name)
    (start : Option (ConfigTree Name))
    (mark : Option (ConfigTree Name) → Prop)
    (commands : List (Command Name)) : Prop :=
  ∀ tree, Conforms kinds tree → subtree probe tree = start →
    mark (subtree probe (executeAll kinds commands tree))

namespace Yields

theorem nil (marked : mark start) : Yields kinds probe start mark [] := by
  intro tree _ found
  rwa [executeAll, List.foldl_nil, found]

theorem ofSpares (spared : Spares probe commands) (marked : mark start) :
    Yields kinds probe start mark commands := by
  intro tree _ found
  rwa [spared.subtree_eq, found]

theorem mono (implies : ∀ after, mark after → weaker after)
    (yields : Yields kinds probe start mark commands) :
    Yields kinds probe start weaker commands :=
  fun tree conforms found => implies _ (yields tree conforms found)

/-- What is written elsewhere before and after does not matter. -/
theorem within {front back : List (Command Name)}
    (before : Spares probe front)
    (yields : Yields kinds probe start mark commands)
    (after : Spares probe back) :
    Yields kinds probe start mark (front ++ commands ++ back) := by
  intro tree conforms found
  rw [executeAll_append, executeAll_append, after.subtree_eq]
  refine yields _ conforms.executeAll ?_
  rw [before.subtree_eq, found]

end Yields

/-! ## A value, a flag -/

section Leaves

variable {base : List Name} {key : Name}

theorem Yields.write (nodes : NodePath kinds base)
    (isSingle : kinds (base ++ [key]) = .single) (text : Name) :
    Yields kinds (base ++ [key]) start (· = some (.value text))
      [.set (base ++ [key] ++ [text])] := by
  intro tree conforms _
  have written := conforms.subtree_set_single nodes isSingle text
  simpa [executeAll, execute] using written

theorem Yields.clear {path : List Name} (proper : path ≠ []) :
    Yields kinds path start (· = none) [.delete path] :=
  fun tree _ _ => subtree_delete_below proper (List.prefix_refl path) tree

theorem Yields.raise (nodes : NodePath kinds base)
    (isValueless : kinds (base ++ [key]) = .valueless) :
    Yields kinds (base ++ [key]) start (· = some (.node []))
      [.set (base ++ [key])] :=
  fun tree _ _ => subtree_set_valueless nodes isValueless tree

end Leaves

/-! ## Values -/

/-- The values of a leaf. -/
def leafValues : Option (ConfigTree Name) → List Name
  | some (.value text) => [text]
  | some (.values texts) => texts
  | _ => []

theorem mem_leafValues_addValue {old : Option (ConfigTree Name)}
    (notNode : ∀ entries, old ≠ some (.node entries)) (text other : Name) :
    other ∈ leafValues (some (addValue old text)) ↔
      other = text ∨ other ∈ leafValues old := by
  cases old with
  | none => simp [addValue, leafValues]
  | some old =>
      cases old with
      | node entries => exact absurd rfl (notNode entries)
      | value old =>
          simp only [addValue]
          split
          · rename_i same
            simp [leafValues, same]
          · simp [leafValues, or_comm]
      | values olds =>
          simp only [addValue]
          split
          · rename_i member
            have already : other = text → other ∈ olds := fun same =>
              same ▸ member
            simpa [leafValues] using already
          · simp [leafValues, or_comm]
      | scalar old | null => simp [addValue, leafValues]

theorem mem_leafValues_dropValue (leaf : ConfigTree Name) (text other : Name) :
    other ∈ leafValues (dropValue text leaf) ↔
      other ≠ text ∧ other ∈ leafValues (some leaf) := by
  cases leaf with
  | value old =>
      by_cases same : old = text
      · simp [dropValue, leafValues, same]
      · have kept : other = old → other ≠ text := fun equal => equal ▸ same
        simpa [dropValue, leafValues, same] using kept
  | values olds =>
      have fewer : other ∈ leafValues (dropValue text (.values olds)) ↔
          other ∈ olds.filter (· ≠ text) := by
        simp only [dropValue]
        generalize olds.filter (· ≠ text) = remaining
        rcases remaining with _ | ⟨first, _ | ⟨second, rest⟩⟩ <;>
          simp [leafValues]
      rw [fewer, List.mem_filter]
      simp [leafValues, and_comm]
  | node entries | scalar text | null => simp [dropValue, leafValues]

theorem child_getD_node (tree : Option (ConfigTree Name)) (key : Name) :
    (tree.getD (.node [])).child key = tree.bind fun node => node.child key := by
  cases tree <;> rfl

theorem subtree_set_multi {base : List Name} {key : Name}
    (nodes : NodePath kinds base) (isMulti : kinds (base ++ [key]) = .multi)
    (text : Name) (tree : ConfigTree Name) :
    subtree (base ++ [key]) (set kinds (base ++ [key] ++ [text]) tree) =
      some (addValue (subtree (base ++ [key]) tree) text) := by
  have isMulti : kinds.below base [key] = .multi := isMulti
  have old : ((subtree base tree).getD (.node [])).child key =
      subtree (base ++ [key]) tree := by
    rw [child_getD_node, subtree_append]
    congr 1
    funext node
    exact (subtree_singleton key node).symm
  rw [List.append_assoc, subtree_append, subtree_set_append nodes,
    Option.bind_some, subtree_singleton, List.singleton_append,
    set_multi isMulti, child_put_self, old]

theorem subtree_delete_value {leaf : List Name} (proper : leaf ≠ [])
    {text : Name} {tree : ConfigTree Name}
    (notNode : ∀ entries, subtree leaf tree ≠ some (.node entries)) :
    subtree leaf (delete (leaf ++ [text]) tree) =
      (subtree leaf tree).bind (dropValue text) := by
  induction leaf generalizing tree with
  | nil => exact absurd rfl proper
  | cons key rest ih =>
      cases rest with
      | nil =>
          simp only [subtree_singleton] at notNode ⊢
          rw [List.singleton_append, delete]
          split
          · rename_i absent
            rw [absent, Option.bind_none]
          · rename_i entries found
            exact absurd found (notNode entries)
          · rename_i leaf _ found
            rw [if_pos rfl, dropIn, found, Option.bind_some]
            split
            · rename_i dropped
              rw [child_erase_self, dropped]
            · rename_i left dropped
              rw [child_put_self, dropped]
      | cons next rest =>
          rw [List.cons_append, List.cons_append, delete]
          split
          · rename_i absent
            rw [subtree, absent, Option.bind_none, Option.bind_none]
          · rename_i entries found
            have below : subtree (key :: next :: rest) tree =
                subtree (next :: rest) (.node entries) := by
              rw [subtree, found, Option.bind_some]
            rw [below] at notNode
            rw [below, subtree, child_put_self, Option.bind_some]
            exact ih (List.cons_ne_nil next rest) notNode
          · rename_i leaf isLeaf found
            rw [if_neg (by simp), subtree, found, Option.bind_some,
              subtree_of_leaf (entries_of_not_node isLeaf) (by simp)]
            rfl

/-- What is collected at a path: a `set` of one more adds it, a `delete` takes
it out. -/
structure ValueSet (kinds : Kinds Name) (leaf : List Name)
    (holds : Option (ConfigTree Name) → Name → Prop) : Prop where
  set : ∀ {tree}, Conforms kinds tree → ∀ text other,
    holds (subtree leaf (ConfigTree.set kinds (leaf ++ [text]) tree)) other ↔
      other = text ∨ holds (subtree leaf tree) other
  delete : ∀ {tree}, Conforms kinds tree → ∀ text other,
    holds (subtree leaf (ConfigTree.delete (leaf ++ [text]) tree)) other ↔
      other ≠ text ∧ holds (subtree leaf tree) other

namespace ValueSet

/-- The values of a leaf. -/
theorem ofMulti {base : List Name} {key : Name} (nodes : NodePath kinds base)
    (isMulti : kinds (base ++ [key]) = .multi) :
    ValueSet kinds (base ++ [key]) fun leaf text => text ∈ leafValues leaf := by
  have notNode : ∀ {tree}, Conforms kinds tree → ∀ entries,
      subtree (base ++ [key]) tree ≠ some (.node entries) := by
    intro tree conforms entries found
    have fits := conforms.fits_subtree found
    cases fits <;> simp_all
  constructor
  · intro tree conforms text other
    rw [subtree_set_multi nodes isMulti]
    exact mem_leafValues_addValue (notNode conforms) text other
  · intro tree conforms text other
    rw [subtree_delete_value (by simp) (notNode conforms)]
    cases subtree (base ++ [key]) tree with
    | none => simp [leafValues]
    | some leaf => exact mem_leafValues_dropValue leaf text other

/-- The names below a node. -/
theorem ofNames {leaf : List Name} (nodes : NodePath kinds leaf)
    (each : ∀ name, kinds (leaf ++ [name]) = .node) :
    ValueSet kinds leaf fun node name =>
      (node.bind fun node => node.child name).isSome = true := by
  constructor
  · intro tree _ text other
    have isNode : kinds.below leaf [text] = .node := each text
    rw [subtree_set_append nodes, set_node isNode, Option.bind_some]
    by_cases same : other = text
    · simp [same]
    · rw [child_put_of_ne same, child_getD_node]
      simp [same]
  · intro tree conforms text other
    cases found : subtree leaf tree with
    | none => simp [subtree_delete_of_absent found]
    | some node =>
        have isNode := conforms.node_of_nodePath nodes found
        rw [isNode] at found ⊢
        rw [subtree_delete_append (by simp) found, Option.bind_some]
        rw [ConfigTree.delete]
        by_cases same : other = text
        · simp [same]
        · rw [child_erase_of_ne same]
          simp [same]

variable {leaf : List Name} {holds : Option (ConfigTree Name) → Name → Prop}

theorem sets (values : ValueSet kinds leaf holds) (texts : List Name)
    {tree : ConfigTree Name} (conforms : Conforms kinds tree) (other : Name) :
    holds (subtree leaf (executeAll kinds
      (texts.map fun text => .set (leaf ++ [text])) tree)) other ↔
      other ∈ texts ∨ holds (subtree leaf tree) other := by
  induction texts generalizing tree with
  | nil => simp [executeAll]
  | cons text texts ih =>
      have next : Conforms kinds (ConfigTree.set kinds (leaf ++ [text]) tree) :=
        conforms.set
      have rest := ih next
      simp only [executeAll, List.map_cons, List.foldl_cons, execute] at rest ⊢
      rw [rest, values.set conforms, List.mem_cons]
      tauto

theorem deletes (values : ValueSet kinds leaf holds) (texts : List Name)
    {tree : ConfigTree Name} (conforms : Conforms kinds tree) (other : Name) :
    holds (subtree leaf (executeAll kinds
      (texts.map fun text => .delete (leaf ++ [text])) tree)) other ↔
      other ∉ texts ∧ holds (subtree leaf tree) other := by
  induction texts generalizing tree with
  | nil => simp [executeAll]
  | cons text texts ih =>
      have next : Conforms kinds (ConfigTree.delete (leaf ++ [text]) tree) :=
        conforms.delete
      have rest := ih next
      simp only [executeAll, List.map_cons, List.foldl_cons, execute] at rest ⊢
      rw [rest, values.delete conforms, List.mem_cons]
      tauto

/-- Some values more, then some less. -/
theorem exchange (values : ValueSet kinds leaf holds)
    (added removed : List Name) :
    Yields kinds leaf start
      (fun after => ∀ text, holds after text ↔
        text ∉ removed ∧ (text ∈ added ∨ holds start text))
      ((added.map fun text => .set (leaf ++ [text])) ++
        removed.map fun text => .delete (leaf ++ [text])) := by
  intro tree conforms found text
  rw [executeAll_append, values.deletes removed conforms.executeAll,
    values.sets added conforms, found]

end ValueSet

end ConfigTree

end QuartzFire
