import QuartzFire.Foundation.ConfigField

/-!
# Editing one node of a configuration

A batch whose paths all lie below one node acts on the subtree there as the
batch without the common part of the paths acts on that subtree alone.  What
is said of a slice by itself then holds of the configuration it is part of,
and everything apart from what the slice writes is as it was.
-/

namespace QuartzFire

open ConfigTree

variable {Name : Type}

instance [DecidableEq Name] (left right : List Name) :
    Decidable (Diverges left right) :=
  inferInstanceAs (Decidable (¬ left <+: right ∧ ¬ right <+: left))

/-- The command below a node. -/
def Command.under (base : List Name) : Command Name → Command Name
  | .set path => .set (base ++ path)
  | .delete path => .delete (base ++ path)

@[simp] theorem Command.path_under (base : List Name) (command : Command Name) :
    (command.under base).path = base ++ command.path := by
  cases command <;> rfl

theorem Command.under_append (first second : List Name)
    (command : Command Name) :
    command.under (first ++ second) = (command.under second).under first := by
  cases command <;> simp [Command.under]

/-- Writes something. -/
def Command.isSet : Command Name → Bool
  | .set _ => true
  | .delete _ => false

namespace ConfigTree

variable {kinds : Kinds Name}

/-- The schema has a kind at a path, and nodes above it. -/
structure FieldAt (kinds : Kinds Name) (path : List Name) (kind : Kind) :
    Prop where
  proper : path ≠ []
  nodes : NodePath kinds path.dropLast
  kind : kinds path = kind

theorem FieldAt.split {path : List Name} {kind : Kind}
    (field : FieldAt kinds path kind) :
    ∃ base key, path = base ++ [key] ∧ NodePath kinds base ∧
      kinds (base ++ [key]) = kind := by
  refine ⟨path.dropLast, path.getLast field.proper,
    (List.dropLast_append_getLast field.proper).symm, field.nodes, ?_⟩
  rw [List.dropLast_append_getLast field.proper]
  exact field.kind

theorem Kinds.below_append (base more : List Name) :
    kinds.below (base ++ more) = (kinds.below base).below more := by
  funext path
  exact congrArg kinds (List.append_assoc base more path)

theorem NodePath.append {base more : List Name} :
    NodePath kinds (base ++ more) ↔
      NodePath kinds base ∧ NodePath (kinds.below base) more := by
  induction base generalizing kinds with
  | nil =>
      rw [List.nil_append, NodePath, true_and]
      rfl
  | cons key base ih =>
      rw [List.cons_append, NodePath, NodePath, ih, and_assoc]
      rfl

/-- Nodes down to and including the path. -/
theorem FieldAt.nodePath {path : List Name} (field : FieldAt kinds path .node) :
    NodePath kinds path := by
  obtain ⟨base, key, rfl, nodes, isNode⟩ := field.split
  exact NodePath.append.mpr ⟨nodes, isNode, trivial⟩

theorem FieldAt.below {base path : List Name} {kind : Kind}
    (nodes : NodePath kinds base)
    (field : FieldAt (kinds.below base) path kind) :
    FieldAt kinds (base ++ path) kind where
  proper := List.append_ne_nil_of_right_ne_nil base field.proper
  nodes := by
    rw [List.dropLast_append_of_ne_nil field.proper]
    exact NodePath.append.mpr ⟨nodes, field.nodes⟩
  kind := field.kind

/-- The schema has these kinds at these paths. -/
def Shaped (kinds : Kinds Name) (shape : List (List Name × Kind)) : Prop :=
  ∀ field ∈ shape, FieldAt kinds field.1 field.2

instance NodePath.decidable : (kinds : Kinds Name) → (path : List Name) →
    Decidable (NodePath kinds path)
  | _, [] => .isTrue trivial
  | kinds, key :: path =>
      have := NodePath.decidable (kinds.below [key]) path
      inferInstanceAs (Decidable (kinds [key] = .node ∧ _))

instance (kinds : Kinds Name) (path : List Name) (kind : Kind) :
    Decidable (FieldAt kinds path kind) :=
  match path with
  | [] => .isFalse fun field => field.proper rfl
  | key :: rest =>
      decidable_of_iff (NodePath kinds (key :: rest).dropLast ∧
          kinds (key :: rest) = kind)
        ⟨fun both => ⟨List.cons_ne_nil key rest, both.1, both.2⟩,
          fun field => ⟨field.nodes, field.kind⟩⟩

instance (kinds : Kinds Name) (shape : List (List Name × Kind)) :
    Decidable (Shaped kinds shape) :=
  inferInstanceAs (Decidable (∀ field ∈ shape, FieldAt kinds field.1 field.2))

variable [DecidableEq Name]

/-- The node at a path, empty when there is none. -/
def slice (base : List Name) (tree : ConfigTree Name) : ConfigTree Name :=
  (subtree base tree).getD (.node [])

theorem slice_of_found {base : List Name} {tree found : ConfigTree Name}
    (present : subtree base tree = some found) : slice base tree = found := by
  rw [slice, present, Option.getD_some]

theorem subtree_slice {base path : List Name} (proper : path ≠ [])
    (tree : ConfigTree Name) :
    subtree path (slice base tree) = subtree (base ++ path) tree := by
  rw [slice, subtree_append]
  cases subtree base tree with
  | some found => rfl
  | none => exact subtree_of_leaf rfl proper

theorem slice_slice {base path : List Name} (proper : path ≠ [])
    (tree : ConfigTree Name) :
    slice path (slice base tree) = slice (base ++ path) tree := by
  rw [slice, subtree_slice proper]
  rfl

theorem Conforms.slice {base : List Name} {tree : ConfigTree Name}
    (conforms : Conforms kinds tree) (nodes : NodePath kinds base) :
    Conforms (kinds.below base) (slice base tree) := by
  rw [ConfigTree.slice]
  cases found : subtree base tree with
  | none => exact .empty
  | some node =>
      rw [Option.getD_some]
      have isNode := conforms.node_of_nodePath nodes found
      induction base using List.reverseRecOn with
      | nil =>
          cases found
          exact conforms
      | append_singleton base key _ =>
          have fits := conforms.fits_subtree found
          rw [isNode] at fits ⊢
          rw [Kinds.below_append]
          exact fits.conforms

theorem isSome_slice_child (base : List Name) (key : Name)
    (tree : ConfigTree Name) :
    (slice base tree).child key = subtree (base ++ [key]) tree := by
  rw [← subtree_singleton, subtree_slice (by simp)]

/-! ## Batches below a node -/

section Under

variable {base : List Name}

theorem delete_empty {path : List Name} :
    ConfigTree.delete path (.node []) = (.node [] : ConfigTree Name) := by
  cases path with
  | nil => rfl
  | cons key path =>
      cases path <;> rfl

theorem slice_execute_under (nodes : NodePath kinds base)
    {command : Command Name} (proper : command ≠ .delete [])
    {tree : ConfigTree Name} (conforms : Conforms kinds tree) :
    slice base (execute kinds tree (command.under base)) =
      execute (kinds.below base) (slice base tree) command := by
  cases command with
  | set path =>
      rw [Command.under, execute, slice, subtree_set_append nodes,
        Option.getD_some]
      rfl
  | delete path =>
      have proper : path ≠ [] := fun empty => proper (empty ▸ rfl)
      rw [Command.under, execute, execute, slice, slice]
      cases found : subtree base tree with
      | none =>
          rw [subtree_delete_of_absent found, Option.getD_none, delete_empty]
      | some node =>
          have isNode := conforms.node_of_nodePath nodes found
          rw [isNode] at found ⊢
          rw [subtree_delete_append proper found, Option.getD_some,
            Option.getD_some]

/-- A batch below a node acts on the node as if it were the whole. -/
theorem slice_executeAll_under (nodes : NodePath kinds base)
    {commands : List (Command Name)}
    (proper : ∀ command ∈ commands, command ≠ .delete [])
    {tree : ConfigTree Name} (conforms : Conforms kinds tree) :
    slice base (executeAll kinds (commands.map (Command.under base)) tree) =
      executeAll (kinds.below base) commands (slice base tree) := by
  induction commands generalizing tree with
  | nil => rfl
  | cons command commands ih =>
      rw [List.map_cons, executeAll, List.foldl_cons, executeAll,
        List.foldl_cons, ← slice_execute_under nodes (proper command (by simp))
          conforms]
      exact ih (fun other member => proper other (by simp [member]))
        conforms.execute

theorem isSome_execute_under (nodes : NodePath kinds base)
    {command : Command Name} (proper : command ≠ .delete [])
    {tree : ConfigTree Name} (conforms : Conforms kinds tree) :
    (subtree base (execute kinds tree (command.under base))).isSome =
      ((subtree base tree).isSome || command.isSet) := by
  cases command with
  | set path =>
      rw [Command.under, execute, subtree_set_append nodes]
      simp [Command.isSet]
  | delete path =>
      have proper : path ≠ [] := fun empty => proper (empty ▸ rfl)
      rw [Command.under, execute, Command.isSet, Bool.or_false]
      cases found : subtree base tree with
      | none => rw [subtree_delete_of_absent found]
      | some node =>
          have isNode := conforms.node_of_nodePath nodes found
          rw [isNode] at found
          rw [subtree_delete_append proper found]
          rfl

/-- A node is there after a batch below it if it was, or something is
written. -/
theorem isSome_executeAll_under (nodes : NodePath kinds base)
    {commands : List (Command Name)}
    (proper : ∀ command ∈ commands, command ≠ .delete [])
    {tree : ConfigTree Name} (conforms : Conforms kinds tree) :
    (subtree base (executeAll kinds (commands.map (Command.under base))
        tree)).isSome =
      ((subtree base tree).isSome || commands.any Command.isSet) := by
  induction commands generalizing tree with
  | nil => simp [executeAll]
  | cons command commands ih =>
      have step := isSome_execute_under nodes (proper command (by simp)) conforms
      have next : Conforms kinds (execute kinds tree (command.under base)) :=
        conforms.execute
      have rest := ih (fun other member => proper other (by simp [member])) next
      rw [executeAll] at rest
      rw [List.map_cons, executeAll, List.foldl_cons, rest, step,
        List.any_cons, Bool.or_assoc]

omit [DecidableEq Name] in
/-- Commands below a node, or the one that makes it when it is not there and
none of them would. -/
def created (present : Bool) (commands : List (Command Name)) :
    List (Command Name) :=
  if present = false ∧ commands.any Command.isSet = false then [.set []]
  else commands

theorem executeAll_deletes_empty {commands : List (Command Name)}
    (deletes : commands.any Command.isSet = false) :
    executeAll kinds commands (.node []) = (.node [] : ConfigTree Name) := by
  induction commands with
  | nil => rfl
  | cons command commands ih =>
      rw [List.any_cons, Bool.or_eq_false_iff] at deletes
      cases command with
      | set path => simp [Command.isSet] at deletes
      | delete path =>
          rw [executeAll, List.foldl_cons, execute, delete_empty]
          exact ih deletes.2

/-- After such a batch the node is there, with what the commands make of what
was there. -/
theorem subtree_created (nodes : NodePath kinds base)
    {commands : List (Command Name)}
    (proper : ∀ command ∈ commands, command ≠ .delete [])
    {tree : ConfigTree Name} (conforms : Conforms kinds tree) :
    subtree base (executeAll kinds
        ((created (subtree base tree).isSome commands).map
          (Command.under base)) tree) =
      some (executeAll (kinds.below base) commands (slice base tree)) := by
  unfold created
  split
  · rename_i absent
    obtain ⟨absent, deletes⟩ := absent
    have missing : subtree base tree = none :=
      Option.isNone_iff_eq_none.mp (Option.isSome_eq_false_iff.mp absent)
    rw [slice, missing, Option.getD_none, executeAll_deletes_empty deletes]
    simp only [List.map_cons, List.map_nil, Command.under, List.append_nil,
      executeAll, List.foldl_cons, List.foldl_nil, execute]
    have made := subtree_set_append nodes [] tree
    rw [List.append_nil, missing] at made
    rw [made]
    rfl
  · rename_i present
    have there := isSome_executeAll_under nodes proper conforms
    rw [not_and_or, Bool.not_eq_false, Bool.not_eq_false,
      ← Bool.or_eq_true] at present
    rw [present] at there
    rw [← slice_executeAll_under nodes proper conforms, slice]
    obtain ⟨node, found⟩ := Option.isSome_iff_exists.mp there
    rw [found, Option.getD_some]

/-- A node that is there, or that something is written below, holds what the
commands make of it. -/
theorem subtree_executeAll_under (nodes : NodePath kinds base)
    {commands : List (Command Name)}
    (proper : ∀ command ∈ commands, command ≠ .delete [])
    {tree : ConfigTree Name} (conforms : Conforms kinds tree)
    (there : (subtree base tree).isSome = true ∨
      commands.any Command.isSet = true) :
    subtree base (executeAll kinds (commands.map (Command.under base)) tree) =
      some (executeAll (kinds.below base) commands (slice base tree)) := by
  have found := isSome_executeAll_under nodes proper conforms
  rw [Bool.or_eq_true _ _ |>.mpr there] at found
  obtain ⟨node, written⟩ := Option.isSome_iff_exists.mp found
  rw [← slice_executeAll_under nodes proper conforms, slice, written,
    Option.getD_some]

theorem executeAll_set_nil (commands : List (Command Name))
    (tree : ConfigTree Name) :
    executeAll kinds (.set [] :: commands) tree =
      executeAll kinds commands tree := by
  rw [executeAll, List.foldl_cons, execute, set]
  rfl

omit [DecidableEq Name] in
/-- Commands below a node, which is made first when it is not there. -/
def made (present : Bool) (commands : List (Command Name)) :
    List (Command Name) :=
  if present then commands else .set [] :: commands

theorem subtree_made (nodes : NodePath kinds base)
    {commands : List (Command Name)}
    (proper : ∀ command ∈ commands, command ≠ .delete [])
    {present : Bool} {tree : ConfigTree Name} (conforms : Conforms kinds tree)
    (there : present = true → (subtree base tree).isSome = true) :
    subtree base (executeAll kinds
        ((made present commands).map (Command.under base)) tree) =
      some (executeAll (kinds.below base) commands (slice base tree)) := by
  cases present with
  | true =>
      exact subtree_executeAll_under nodes proper conforms (.inl (there rfl))
  | false =>
      have proper' : ∀ command ∈ made false commands, command ≠ .delete [] := by
        simpa [made] using proper
      rw [subtree_executeAll_under nodes proper' conforms
        (.inr (by simp [made, Command.isSet])), made, if_neg (by simp),
        executeAll_set_nil]

omit [DecidableEq Name] in
/-- What diverges from the node a batch is below of is as before. -/
theorem spares_under {probe : List Name} (diverges : Diverges base probe)
    (commands : List (Command Name)) :
    Spares probe (commands.map (Command.under base)) := by
  refine Each.map fun command _ => ?_
  simpa using diverges.append command.path []

end Under

/-! ## Blocks -/

section Blocks

omit [DecidableEq Name]

/-- Commands that write at or below some paths. -/
structure Block (Name : Type) where
  leaves : List (List Name)
  commands : List (Command Name)

abbrev Block.Local (block : Block Name) : Prop :=
  Along (fun path => ∃ leaf ∈ block.leaves, leaf <+: path) block.commands

theorem Block.Local.ofBelow {path : List Name} {commands : List (Command Name)}
    (below : Below path commands) : Block.Local ⟨[path], commands⟩ :=
  Along.mono (fun _ placed => ⟨path, by simp, placed⟩) below

/-- Nothing is done at a path that is spared. -/
theorem Spares.only_iff {probe : List Name} {commands : List (Command Name)}
    (spared : Spares probe commands) {allowed : Prop} :
    (∀ command ∈ commands, command = .delete probe ∧ allowed) ↔
      commands = [] := by
  constructor
  · intro only
    refine List.eq_nil_iff_forall_not_mem.mpr fun command member => ?_
    obtain ⟨rfl, _⟩ := only command member
    exact (spared _ member).1 (List.prefix_refl _)
  · rintro rfl
    simp

/-- Blocks that write apart from each other. -/
structure Separate (blocks : List (Block Name)) : Prop where
  diverge : (blocks.map Block.leaves).Pairwise fun left right =>
    ∀ leaf ∈ left, ∀ other ∈ right, Diverges leaf other
  each : ∀ block ∈ blocks, block.Local

/-- The commands of the blocks one after another. -/
abbrev laid (blocks : List (Block Name)) : List (Command Name) :=
  blocks.flatMap Block.commands

/-- All paths the blocks write at. -/
abbrev written (blocks : List (Block Name)) : List (List Name) :=
  blocks.flatMap Block.leaves

theorem Block.Local.spares {block : Block Name} {probe : List Name}
    (within : block.Local)
    (diverge : ∀ leaf ∈ block.leaves, Diverges leaf probe) :
    Spares probe block.commands := by
  refine Along.mono (fun path placed => ?_) within
  obtain ⟨leaf, member, more, rfl⟩ := placed
  simpa using (diverge leaf member).append more []

theorem spares_laid {blocks : List (Block Name)} {probe : List Name}
    (each : ∀ block ∈ blocks, block.Local)
    (diverge : ∀ leaf ∈ written blocks, Diverges leaf probe) :
    Spares probe (laid blocks) :=
  Each.flatMap fun block member => (each block member).spares fun leaf inside =>
    diverge leaf (List.mem_flatMap.mpr ⟨block, member, inside⟩)

end Blocks

variable {probe : List Name} {start : Option (ConfigTree Name)}
  {mark : Option (ConfigTree Name) → Prop}

/-- A path below a leaf of one block holds what that block makes of it. -/
theorem Yields.laid {blocks : List (Block Name)} (separate : Separate blocks)
    {block : Block Name} (member : block ∈ blocks) {leaf : List Name}
    (inside : leaf ∈ block.leaves) (above : leaf <+: probe)
    (yields : Yields kinds probe start mark block.commands) :
    Yields kinds probe start mark (laid blocks) := by
  obtain ⟨front, back, rfl⟩ := List.append_of_mem member
  obtain ⟨more, rfl⟩ := above
  have pairs := separate.diverge
  rw [List.map_append, List.map_cons, List.pairwise_append,
    List.pairwise_cons] at pairs
  obtain ⟨_, ⟨later, _⟩, across⟩ := pairs
  have elsewhere : ∀ other ∈ front ++ back, ∀ path ∈ other.leaves,
      Diverges path (leaf ++ more) := by
    intro other among path written
    have diverges : Diverges path leaf := by
      rcases List.mem_append.mp among with before | after
      · exact across _ (List.mem_map_of_mem before) block.leaves (by simp) path
          written leaf inside
      · exact (later _ (List.mem_map_of_mem after) leaf inside path written).symm
    simpa using diverges.append [] more
  have spared : ∀ others : List (Block Name),
      (∀ other ∈ others, other ∈ front ++ back) →
      Spares (leaf ++ more) (ConfigTree.laid others) := by
    intro others among
    refine spares_laid (fun other one => ?_) fun path written => ?_
    · refine separate.each other ?_
      have := among other one
      simp only [List.mem_append, List.mem_cons] at this ⊢
      tauto
    · obtain ⟨other, one, placed⟩ := List.mem_flatMap.mp written
      exact elsewhere other (among other one) path placed
  rw [ConfigTree.laid, List.flatMap_append, List.flatMap_cons,
    ← List.append_assoc]
  exact within (spared front (by simp +contextual)) yields
    (spared back (by simp +contextual))

/-- What a block makes of a path at its leaf, or below, is there in the end. -/
theorem Yields.within_blocks {blocks : List (Block Name)}
    {tree : ConfigTree Name} {leaf : List Name} {leaves : List (List Name)}
    {commands : List (Command Name)}
    (yields : Yields kinds probe (subtree probe tree) mark commands)
    (separate : Separate blocks) (member : ⟨leaves, commands⟩ ∈ blocks)
    (inside : leaf ∈ leaves) (above : leaf <+: probe)
    (conforms : Conforms kinds tree) :
    mark (subtree probe (executeAll kinds (ConfigTree.laid blocks) tree)) :=
  yields.laid separate member inside above tree conforms rfl

/-- The same for a block with one leaf. -/
theorem Yields.at_leaf {blocks : List (Block Name)} {tree : ConfigTree Name}
    {commands : List (Command Name)} (leaf : List Name)
    (yields : Yields kinds probe (subtree probe tree) mark commands)
    (separate : Separate blocks) (member : ⟨[leaf], commands⟩ ∈ blocks)
    (above : leaf <+: probe) (conforms : Conforms kinds tree) :
    mark (subtree probe (executeAll kinds (ConfigTree.laid blocks) tree)) :=
  yields.within_blocks separate member (List.mem_singleton_self leaf) above
    conforms

omit [DecidableEq Name] in
/-- No block deletes the whole. -/
theorem Separate.proper {blocks : List (Block Name)}
    (separate : Separate blocks) (proper : [] ∉ written blocks) :
    ∀ command ∈ ConfigTree.laid blocks, command ≠ .delete [] := by
  rintro _ member rfl
  obtain ⟨block, among, inside⟩ := List.mem_flatMap.mp member
  obtain ⟨leaf, one, above⟩ := separate.each block among _ inside
  rw [Command.path, List.prefix_nil] at above
  exact proper (List.mem_flatMap.mpr ⟨block, among, above ▸ one⟩)

/-- A node saved in blocks: it is there, with what the blocks make of it. -/
theorem Separate.subtree_saved {blocks : List (Block Name)}
    (separate : Separate blocks) (proper : [] ∉ written blocks)
    {base : List Name} (nodes : NodePath kinds base) {tree : ConfigTree Name}
    (conforms : Conforms kinds tree) :
    subtree base (executeAll kinds
        ((created (subtree base tree).isSome (ConfigTree.laid blocks)).map
          (Command.under base)) tree) =
      some (executeAll (kinds.below base) (ConfigTree.laid blocks)
        (slice base tree)) :=
  subtree_created nodes (separate.proper proper) conforms

/-- One batch after another. -/
theorem Yields.append (middle : Option (ConfigTree Name) → Prop)
    {first second : List (Command Name)}
    (before : Yields kinds probe start middle first)
    (next : ∀ after, middle after → Yields kinds probe after mark second) :
    Yields kinds probe start mark (first ++ second) := by
  intro tree conforms found
  rw [executeAll_append]
  exact next _ (before tree conforms found) _ conforms.executeAll rfl

theorem Yields.clearAbove (above : List Name) (proper : above ≠ [])
    (leads : above <+: probe) :
    Yields kinds probe start (· = none) [.delete above] :=
  fun tree _ _ => subtree_delete_below proper leads tree

/-- A batch that does not touch the path leaves what it starts with. -/
theorem Yields.kept {commands : List (Command Name)}
    (spared : Spares probe commands) :
    Yields kinds probe start (· = start) commands :=
  .ofSpares spared rfl

end ConfigTree

end QuartzFire
