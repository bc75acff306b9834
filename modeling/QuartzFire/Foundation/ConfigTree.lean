import Mathlib.Data.List.Basic
import Mathlib.Data.List.Infix

/-!
# Configuration trees edited by paths

A configuration is a tree of named entries whose leaves hold one value or
several.  It is edited by `set` and `delete` commands that name a path; what a
path component is, a child or a value, is decided by a schema.  Reading any
path that diverges from the edited one gives what it gave before.
-/

namespace QuartzFire

inductive ConfigTree (Name : Type) where
  | value (text : Name)
  | values (texts : List Name)
  /-- A number or a boolean, by its text. -/
  | scalar (text : Name)
  | null
  | node (entries : List (Name × ConfigTree Name))

/-- What the schema has at a path. -/
inductive Kind where
  | node
  | valueless
  | single
  | multi
  deriving DecidableEq, Repr

/-- The kind of every path. -/
abbrev Kinds (Name : Type) := List Name → Kind

/-- The kinds below an entry. -/
abbrev Kinds.below {Name : Type} (kinds : Kinds Name) (base : List Name) :
    Kinds Name :=
  fun path => kinds (base ++ path)

inductive Command (Name : Type) where
  | set (path : List Name)
  | delete (path : List Name)
  deriving DecidableEq, Repr

variable {Name : Type}

def Command.path : Command Name → List Name
  | .set path | .delete path => path

/-- Neither path leads to the other. -/
def Diverges (left right : List Name) : Prop :=
  ¬ left <+: right ∧ ¬ right <+: left

namespace ConfigTree

def entries : ConfigTree Name → List (Name × ConfigTree Name)
  | .node entries => entries
  | _ => []

@[simp] theorem entries_node (entries : List (Name × ConfigTree Name)) :
    (node entries).entries = entries := rfl

theorem entries_of_not_node {leaf : ConfigTree Name}
    (notNode : ∀ entries, leaf = .node entries → False) : leaf.entries = [] := by
  cases leaf with
  | node entries => exact (notNode entries rfl).elim
  | _ => rfl

section Editing

variable [DecidableEq Name]

mutual

def decideEq : (left right : ConfigTree Name) → Decidable (left = right)
  | .value left, .value right => decidable_of_iff (left = right) (by simp)
  | .values left, .values right => decidable_of_iff (left = right) (by simp)
  | .scalar left, .scalar right => decidable_of_iff (left = right) (by simp)
  | .null, .null => .isTrue rfl
  | .node left, .node right =>
      @decidable_of_iff _ (left = right) (by simp) (decideEqEntries left right)
  | .value _, .values _ | .value _, .scalar _ | .value _, .null
  | .value _, .node _ | .values _, .value _ | .values _, .scalar _
  | .values _, .null | .values _, .node _ | .scalar _, .value _
  | .scalar _, .values _ | .scalar _, .null | .scalar _, .node _
  | .null, .value _ | .null, .values _ | .null, .scalar _ | .null, .node _
  | .node _, .value _ | .node _, .values _ | .node _, .scalar _
  | .node _, .null => .isFalse (by simp)

def decideEqEntries :
    (left right : List (Name × ConfigTree Name)) → Decidable (left = right)
  | [], [] => .isTrue rfl
  | [], _ :: _ | _ :: _, [] => .isFalse (by simp)
  | (key, tree) :: left, (other, probe) :: right =>
      have := decideEq tree probe
      have := decideEqEntries left right
      decidable_of_iff (key = other ∧ tree = probe ∧ left = right)
        (by simp [and_assoc])

end

instance : DecidableEq (ConfigTree Name) := decideEq

/-- The first entry of a name. -/
def findEntry (key : Name) :
    List (Name × ConfigTree Name) → Option (ConfigTree Name)
  | [] => none
  | (name, tree) :: rest => if name = key then some tree else findEntry key rest

/-- Replace the entry of a name, or append one. -/
def putEntry (key : Name) (tree : ConfigTree Name) :
    List (Name × ConfigTree Name) → List (Name × ConfigTree Name)
  | [] => [(key, tree)]
  | (name, old) :: rest =>
      if name = key then (key, tree) :: rest
      else (name, old) :: putEntry key tree rest

def child (tree : ConfigTree Name) (key : Name) : Option (ConfigTree Name) :=
  findEntry key tree.entries

def put (tree : ConfigTree Name) (key : Name) (entry : ConfigTree Name) :
    ConfigTree Name :=
  .node (putEntry key entry tree.entries)

def erase (tree : ConfigTree Name) (key : Name) : ConfigTree Name :=
  match tree with
  | .node entries => .node (entries.filter fun entry => entry.1 ≠ key)
  | leaf => leaf

/-- The subtree at a path. -/
def subtree : List Name → ConfigTree Name → Option (ConfigTree Name)
  | [], tree => some tree
  | key :: rest, tree => (tree.child key).bind (subtree rest)

/-- The only value of a leaf; a node is not overwritten. -/
def oneValue : Option (ConfigTree Name) → Name → ConfigTree Name
  | some (.node entries), _ => .node entries
  | _, text => .value text

/-- One more value in a leaf: a lone value is rendered bare. -/
def addValue : Option (ConfigTree Name) → Name → ConfigTree Name
  | some (.node entries), _ => .node entries
  | some (.value old), text => if old = text then .value old
      else .values [old, text]
  | some (.values olds), text => if text ∈ olds then .values olds
      else .values (olds ++ [text])
  | _, text => .value text

/-- One value less in a leaf, which goes with its last. -/
def dropValue (text : Name) : ConfigTree Name → Option (ConfigTree Name)
  | .value old => if old = text then none else some (.value old)
  | .values olds =>
      match olds.filter (· ≠ text) with
      | [] => none
      | [last] => some (.value last)
      | left => some (.values left)
  | other => some other

/-- Writes that do not fit the schema change nothing. -/
def set (kinds : Kinds Name) :
    List Name → ConfigTree Name → ConfigTree Name
  | [], tree => tree
  | key :: rest, tree =>
      match kinds [key], rest with
      | .valueless, [] => tree.put key (.node [])
      | .single, [text] => tree.put key (oneValue (tree.child key) text)
      | .multi, [text] => tree.put key (addValue (tree.child key) text)
      | .node, rest => tree.put key
          (set (kinds.below [key]) rest ((tree.child key).getD (.node [])))
      | _, _ => tree

/-- Take one value out of the leaf under a name. -/
def dropIn (tree : ConfigTree Name) (key text : Name)
    (leaf : ConfigTree Name) : ConfigTree Name :=
  match dropValue text leaf with
  | none => tree.erase key
  | some left => tree.put key left

/-- Remove an entry, or one value of a leaf; parents stay. -/
def delete : List Name → ConfigTree Name → ConfigTree Name
  | [], tree => tree
  | [key], tree => tree.erase key
  | key :: next :: rest, tree =>
      match tree.child key with
      | none => tree
      | some (.node entries) =>
          tree.put key (delete (next :: rest) (.node entries))
      | some leaf => if rest = [] then tree.dropIn key next leaf else tree

def execute (kinds : Kinds Name) (tree : ConfigTree Name) :
    Command Name → ConfigTree Name
  | .set path => set kinds path tree
  | .delete path => delete path tree

/-- Execute a batch in order. -/
def executeAll (kinds : Kinds Name) (commands : List (Command Name))
    (tree : ConfigTree Name) : ConfigTree Name :=
  commands.foldl (execute kinds) tree

/-! ## Entries -/

theorem findEntry_putEntry_self (key : Name) (tree : ConfigTree Name)
    (entries : List (Name × ConfigTree Name)) :
    findEntry key (putEntry key tree entries) = some tree := by
  induction entries with
  | nil => simp [putEntry, findEntry]
  | cons entry entries ih =>
      rw [putEntry]
      split
      · simp [findEntry]
      · rename_i different
        rw [findEntry, if_neg different, ih]

theorem findEntry_putEntry_of_ne {key other : Name} (different : other ≠ key)
    (tree : ConfigTree Name) (entries : List (Name × ConfigTree Name)) :
    findEntry other (putEntry key tree entries) = findEntry other entries := by
  induction entries with
  | nil => simp [putEntry, findEntry, different.symm]
  | cons entry entries ih =>
      rw [putEntry]
      split
      · rename_i same
        simp [findEntry, same, different.symm]
      · rw [findEntry, findEntry, ih]

theorem findEntry_filter_self (key : Name)
    (entries : List (Name × ConfigTree Name)) :
    findEntry key (entries.filter fun entry => entry.1 ≠ key) = none := by
  induction entries with
  | nil => rfl
  | cons entry entries ih =>
      rw [List.filter_cons]
      split
      · rename_i kept
        rw [findEntry, if_neg (by simpa using kept), ih]
      · exact ih

theorem findEntry_filter_of_ne {key other : Name} (different : other ≠ key)
    (entries : List (Name × ConfigTree Name)) :
    findEntry other (entries.filter fun entry => entry.1 ≠ key) =
      findEntry other entries := by
  induction entries with
  | nil => rfl
  | cons entry entries ih =>
      rw [List.filter_cons]
      split
      · rw [findEntry, findEntry, ih]
      · rename_i dropped
        have same : entry.1 = key := by simpa using dropped
        rw [ih, findEntry, if_neg (by rw [same]; exact different.symm)]

@[simp] theorem child_put_self (tree : ConfigTree Name) (key : Name)
    (entry : ConfigTree Name) : (tree.put key entry).child key = some entry :=
  findEntry_putEntry_self key entry tree.entries

theorem child_put_of_ne {key other : Name} (different : other ≠ key)
    (tree entry : ConfigTree Name) :
    (tree.put key entry).child other = tree.child other :=
  findEntry_putEntry_of_ne different entry tree.entries

@[simp] theorem child_erase_self (tree : ConfigTree Name) (key : Name) :
    (tree.erase key).child key = none := by
  cases tree with
  | node entries => exact findEntry_filter_self key entries
  | _ => rfl

theorem child_erase_of_ne {key other : Name} (different : other ≠ key)
    (tree : ConfigTree Name) :
    (tree.erase key).child other = tree.child other := by
  cases tree with
  | node entries => exact findEntry_filter_of_ne different entries
  | _ => rfl

/-! ## Paths -/

theorem subtree_append (front back : List Name) (tree : ConfigTree Name) :
    subtree (front ++ back) tree = (subtree front tree).bind (subtree back) := by
  induction front generalizing tree with
  | nil => rfl
  | cons key front ih =>
      rw [List.cons_append, subtree, subtree]
      cases tree.child key with
      | none => rfl
      | some child => exact ih child

theorem subtree_of_leaf {path : List Name} {leaf : ConfigTree Name}
    (noEntries : leaf.entries = []) (proper : path ≠ []) :
    subtree path leaf = none := by
  cases path with
  | nil => exact absurd rfl proper
  | cons key rest =>
      rw [subtree, child, noEntries]
      rfl

/-- Writing a value shows at no path below the leaf. -/
theorem subtree_oneValue {path : List Name} (proper : path ≠ [])
    (old : Option (ConfigTree Name)) (text : Name) :
    subtree path (oneValue old text) = old.bind (subtree path) := by
  unfold oneValue
  split
  · rfl
  · rename_i notNode
    rw [subtree_of_leaf rfl proper]
    cases old with
    | none => rfl
    | some old =>
        cases old with
        | node entries => exact absurd rfl (notNode entries)
        | _ => exact (subtree_of_leaf rfl proper).symm

theorem subtree_addValue {path : List Name} (proper : path ≠ [])
    (old : Option (ConfigTree Name)) (text : Name) :
    subtree path (addValue old text) = old.bind (subtree path) := by
  have leaf : ∀ left right : ConfigTree Name, left.entries = [] →
      right.entries = [] → subtree path left = subtree path right := by
    intro left right noLeft noRight
    rw [subtree_of_leaf noLeft proper, subtree_of_leaf noRight proper]
  cases old with
  | none => exact subtree_of_leaf rfl proper
  | some old =>
      cases old with
      | node entries => rfl
      | value old =>
          simp only [addValue]
          split <;> exact leaf _ _ rfl rfl
      | values olds =>
          simp only [addValue]
          split <;> exact leaf _ _ rfl rfl
      | scalar old | null => exact leaf _ _ rfl rfl

theorem subtree_singleton (key : Name) (tree : ConfigTree Name) :
    subtree [key] tree = tree.child key := by
  rw [subtree]
  cases tree.child key <;> rfl

theorem entries_dropValue {text : Name} {leaf left : ConfigTree Name}
    (noEntries : leaf.entries = []) (dropped : dropValue text leaf = some left) :
    left.entries = [] := by
  cases leaf with
  | value old =>
      simp only [dropValue, Option.ite_none_left_eq_some] at dropped
      cases dropped.2
      rfl
  | values olds =>
      simp only [dropValue] at dropped
      split at dropped <;> cases dropped <;> rfl
  | scalar text | null =>
      cases dropped
      rfl
  | node entries =>
      cases dropped
      exact noEntries

end Editing

end ConfigTree

section Diverging

variable {left right : List Name} {key other : Name}

theorem Diverges.symm (diverges : Diverges left right) : Diverges right left :=
  ⟨diverges.2, diverges.1⟩

theorem not_diverges_nil_left : ¬ Diverges [] right :=
  fun diverges => diverges.1 List.nil_prefix

theorem not_diverges_nil_right : ¬ Diverges left [] :=
  fun diverges => diverges.2 List.nil_prefix

theorem diverges_cons :
    Diverges (key :: left) (other :: right) ↔
      (key = other → Diverges left right) := by
  simp only [Diverges, List.cons_prefix_cons, not_and]
  constructor
  · rintro ⟨forth, back⟩ same
    exact ⟨forth same, back same.symm⟩
  · intro below
    exact ⟨fun same => (below same).1, fun same => (below same.symm).2⟩

theorem diverges_append_left (base : List Name) :
    Diverges (base ++ left) (base ++ right) ↔ Diverges left right := by
  simp only [Diverges, List.prefix_append_right_inj]

theorem diverges_of_length (lengths : left.length = right.length)
    (different : left ≠ right) : Diverges left right :=
  ⟨fun leads => different (leads.eq_of_length lengths),
    fun leads => different (leads.eq_of_length lengths.symm).symm⟩

/-- Longer paths diverge as well. -/
theorem Diverges.append (diverges : Diverges left right)
    (more most : List Name) : Diverges (left ++ more) (right ++ most) := by
  constructor
  · intro leads
    rcases List.prefix_or_prefix_of_prefix
      ((List.prefix_append left more).trans leads)
      (List.prefix_append right most) with forth | back
    · exact diverges.1 forth
    · exact diverges.2 back
  · intro leads
    rcases List.prefix_or_prefix_of_prefix
      ((List.prefix_append right most).trans leads)
      (List.prefix_append left more) with back | forth
    · exact diverges.2 back
    · exact diverges.1 forth

end Diverging

namespace ConfigTree

/-- The schema has a node at every step of the path. -/
def NodePath (kinds : Kinds Name) : List Name → Prop
  | [] => True
  | key :: rest => kinds [key] = .node ∧ NodePath (kinds.below [key]) rest

theorem NodePath.last {kinds : Kinds Name} {base : List Name} {key : Name}
    (nodes : NodePath kinds (base ++ [key])) :
    kinds.below base [key] = .node := by
  induction base generalizing kinds with
  | nil => exact nodes.1
  | cons first base ih => exact ih nodes.2

section Frames

variable [DecidableEq Name]

theorem subtree_put_diverging {key other : Name} {path : List Name}
    {tree entry : ConfigTree Name}
    (unchanged : other = key → subtree path entry =
      (tree.child key).bind (subtree path)) :
    subtree (other :: path) (tree.put key entry) =
      subtree (other :: path) tree := by
  rw [subtree, subtree]
  by_cases same : other = key
  · subst same
    rw [child_put_self, Option.bind_some]
    exact unchanged rfl
  · rw [child_put_of_ne same]

theorem subtree_set_of_diverges {kinds : Kinds Name} {path probe : List Name}
    {tree : ConfigTree Name} (diverges : Diverges path probe) :
    subtree probe (set kinds path tree) = subtree probe tree := by
  induction path generalizing kinds probe tree with
  | nil => exact absurd diverges not_diverges_nil_left
  | cons key path ih =>
      cases probe with
      | nil => exact absurd diverges not_diverges_nil_right
      | cons other probe =>
          rw [diverges_cons] at diverges
          unfold set
          split
          · refine subtree_put_diverging fun same => ?_
            exact absurd (diverges same.symm) not_diverges_nil_left
          · refine subtree_put_diverging fun same => subtree_oneValue ?_ _ _
            rintro rfl
            exact not_diverges_nil_right (diverges same.symm)
          · refine subtree_put_diverging fun same => subtree_addValue ?_ _ _
            rintro rfl
            exact not_diverges_nil_right (diverges same.symm)
          · refine subtree_put_diverging fun same => ?_
            rw [ih (diverges same.symm)]
            cases tree.child key with
            | some child => rfl
            | none =>
                refine subtree_of_leaf rfl ?_
                rintro rfl
                exact not_diverges_nil_right (diverges same.symm)
          · rfl

theorem subtree_erase_of_ne {key other : Name} (different : other ≠ key)
    (path : List Name) (tree : ConfigTree Name) :
    subtree (other :: path) (tree.erase key) = subtree (other :: path) tree := by
  rw [subtree, subtree, child_erase_of_ne different]

theorem subtree_dropIn {key other text : Name} {path : List Name}
    {tree leaf : ConfigTree Name}
    (notNode : ∀ entries, leaf = .node entries → False)
    (found : tree.child key = some leaf) (proper : other = key → path ≠ []) :
    subtree (other :: path) (tree.dropIn key text leaf) =
      subtree (other :: path) tree := by
  have noEntries := entries_of_not_node notNode
  by_cases same : other = key
  · subst same
    rw [subtree, subtree, found, Option.bind_some,
      subtree_of_leaf noEntries (proper rfl), dropIn]
    cases dropped : dropValue text leaf with
    | none => rw [child_erase_self, Option.bind_none]
    | some left =>
        rw [child_put_self, Option.bind_some, subtree_of_leaf
          (entries_dropValue noEntries dropped) (proper rfl)]
  · rw [dropIn]
    split
    · exact subtree_erase_of_ne same path tree
    · exact subtree_put_diverging fun equal => absurd equal same

theorem subtree_delete_of_diverges {path probe : List Name}
    {tree : ConfigTree Name} (diverges : Diverges path probe) :
    subtree probe (delete path tree) = subtree probe tree := by
  induction path generalizing probe tree with
  | nil => exact absurd diverges not_diverges_nil_left
  | cons key path ih =>
      cases probe with
      | nil => exact absurd diverges not_diverges_nil_right
      | cons other probe =>
          rw [diverges_cons] at diverges
          cases path with
          | nil =>
              refine subtree_erase_of_ne ?_ probe tree
              intro same
              exact not_diverges_nil_left (diverges same.symm)
          | cons next rest =>
              have proper : other = key → probe ≠ [] := by
                rintro same rfl
                exact not_diverges_nil_right (diverges same.symm)
              rw [delete]
              split
              · rfl
              · rename_i entries found
                refine subtree_put_diverging fun same => ?_
                rw [found, ih (diverges same.symm)]
                rfl
              · rename_i leaf notNode found
                split
                · exact subtree_dropIn notNode found proper
                · rfl

/-- Nothing is left at or below a deleted path. -/
theorem subtree_delete_below {path probe : List Name} (proper : path ≠ [])
    (leads : path <+: probe) (tree : ConfigTree Name) :
    subtree probe (delete path tree) = none := by
  induction path generalizing probe tree with
  | nil => exact absurd rfl proper
  | cons key path ih =>
      obtain ⟨more, rfl⟩ := leads
      cases path with
      | nil =>
          rw [delete, List.cons_append, subtree, child_erase_self,
            Option.bind_none]
      | cons next rest =>
          rw [delete]
          split
          · rename_i absent
            rw [List.cons_append, subtree, absent, Option.bind_none]
          · rw [List.cons_append, subtree, child_put_self, Option.bind_some]
            exact ih (by simp) (List.prefix_append _ _) _
          · rename_i leaf notNode found
            have proper : key = key → next :: rest ++ more ≠ [] := by simp
            have noEntries := entries_of_not_node notNode
            have nothing :
                subtree (key :: (next :: rest ++ more)) tree = none := by
              rw [subtree, found, Option.bind_some,
                subtree_of_leaf noEntries (proper rfl)]
            split
            · exact (subtree_dropIn notNode found proper).trans nothing
            · exact nothing

/-- What is not there is not there after a delete. -/
theorem subtree_delete_of_absent {path probe : List Name}
    {tree : ConfigTree Name} (absent : subtree probe tree = none) :
    subtree probe (delete path tree) = none := by
  induction path generalizing probe tree with
  | nil => exact absent
  | cons key path ih =>
      cases probe with
      | nil => cases absent
      | cons other probe =>
          cases path with
          | nil =>
              by_cases same : other = key
              · rw [delete, subtree, same, child_erase_self, Option.bind_none]
              · rw [delete, subtree_erase_of_ne same]
                exact absent
          | cons next rest =>
              rw [delete]
              split
              · exact absent
              · rename_i entries found
                by_cases same : other = key
                · rw [subtree, same, found] at absent
                  rw [subtree, same, child_put_self, Option.bind_some]
                  exact ih absent
                · rw [subtree, child_put_of_ne same]
                  exact absent
              · rename_i leaf notNode found
                split
                · rw [subtree_dropIn notNode found]
                  · exact absent
                  · rintro rfl rfl
                    rw [subtree, found] at absent
                    cases absent
                · exact absent

theorem set_node {kinds : Kinds Name} {key : Name} (isNode : kinds [key] = .node)
    (rest : List Name) (tree : ConfigTree Name) :
    set kinds (key :: rest) tree = tree.put key
      (set (kinds.below [key]) rest ((tree.child key).getD (.node []))) := by
  simp only [set, isNode]

theorem set_valueless {kinds : Kinds Name} {key : Name}
    (isValueless : kinds [key] = .valueless) (tree : ConfigTree Name) :
    set kinds [key] tree = tree.put key (.node []) := by
  simp only [set, isValueless]

theorem set_single {kinds : Kinds Name} {key : Name}
    (isSingle : kinds [key] = .single) (text : Name) (tree : ConfigTree Name) :
    set kinds [key, text] tree =
      tree.put key (oneValue (tree.child key) text) := by
  simp only [set, isSingle]

theorem set_multi {kinds : Kinds Name} {key : Name}
    (isMulti : kinds [key] = .multi) (text : Name) (tree : ConfigTree Name) :
    set kinds [key, text] tree =
      tree.put key (addValue (tree.child key) text) := by
  simp only [set, isMulti]

/-- A write below a node edits its subtree, created empty when missing. -/
theorem subtree_set_append {kinds : Kinds Name} {base : List Name}
    (nodes : NodePath kinds base) (path : List Name) (tree : ConfigTree Name) :
    subtree base (set kinds (base ++ path) tree) =
      some (set (kinds.below base) path
        ((subtree base tree).getD (.node []))) := by
  induction base generalizing kinds tree with
  | nil => rfl
  | cons key base ih =>
      rw [List.cons_append, set_node nodes.1, subtree, child_put_self,
        Option.bind_some, ih nodes.2]
      rw [subtree]
      cases tree.child key with
      | none =>
          cases base with
          | nil => rfl
          | cons _ _ => rw [subtree_of_leaf rfl (by simp)]; rfl
      | some child => rfl

theorem subtree_execute_of_diverges {kinds : Kinds Name} {command : Command Name}
    {probe : List Name} {tree : ConfigTree Name}
    (diverges : Diverges command.path probe) :
    subtree probe (execute kinds tree command) = subtree probe tree := by
  cases command with
  | set path => exact subtree_set_of_diverges diverges
  | delete path => exact subtree_delete_of_diverges diverges

/-- A batch leaves every path alone that all its commands diverge from. -/
theorem subtree_executeAll_of_diverges {kinds : Kinds Name}
    {commands : List (Command Name)} {probe : List Name}
    (diverge : ∀ command ∈ commands, Diverges command.path probe)
    (tree : ConfigTree Name) :
    subtree probe (executeAll kinds commands tree) = subtree probe tree := by
  induction commands generalizing tree with
  | nil => rfl
  | cons command commands ih =>
      rw [executeAll, List.foldl_cons]
      exact (ih (fun other member => diverge other (by simp [member])) _).trans
        (subtree_execute_of_diverges (diverge command (by simp)))

theorem executeAll_append (kinds : Kinds Name)
    (first second : List (Command Name)) (tree : ConfigTree Name) :
    executeAll kinds (first ++ second) tree =
      executeAll kinds second (executeAll kinds first tree) :=
  List.foldl_append

/-- A deleted path stays empty while nothing is written on or below it. -/
theorem subtree_deletes {kinds : Kinds Name} {paths : List (List Name)}
    (apart : ∀ path ∈ paths, path ≠ []) {probe : List Name}
    (compare : ∀ path ∈ paths, path <+: probe ∨ Diverges path probe)
    (tree : ConfigTree Name) :
    subtree probe (executeAll kinds (paths.map .delete) tree) =
      if ∃ path ∈ paths, path <+: probe then none else subtree probe tree := by
  induction paths generalizing tree with
  | nil => simp [executeAll]
  | cons path paths ih =>
      rw [List.map_cons, executeAll, List.foldl_cons]
      have rest := ih (fun other member => apart other (by simp [member]))
        (fun other member => compare other (by simp [member]))
        (delete path tree)
      rw [executeAll] at rest
      rw [execute, rest]
      rcases compare path (by simp) with leads | diverges
      · rw [subtree_delete_below (apart path (by simp)) leads]
        simp [leads]
      · rw [subtree_delete_of_diverges diverges]
        simp [diverges.1]

/-- Writes below one node act on its subtree alone. -/
theorem subtree_sets_below {kinds : Kinds Name} {base : List Name}
    (nodes : NodePath kinds base) {paths : List (List Name)}
    (present : paths ≠ []) (tree : ConfigTree Name) :
    subtree base (executeAll kinds (paths.map fun path => .set (base ++ path))
      tree) =
      some (executeAll (kinds.below base) (paths.map .set)
        ((subtree base tree).getD (.node []))) := by
  induction paths generalizing tree with
  | nil => exact absurd rfl present
  | cons path paths ih =>
      simp only [List.map_cons, executeAll, List.foldl_cons, execute]
      cases paths with
      | nil => exact subtree_set_append nodes path tree
      | cons next rest =>
          have below := ih (by simp) (set kinds (base ++ path) tree)
          simp only [executeAll] at below
          rw [below, subtree_set_append nodes path tree]
          rfl

end Frames

end ConfigTree

end QuartzFire
