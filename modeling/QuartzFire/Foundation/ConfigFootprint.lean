import QuartzFire.Foundation.ConfigEdit

/-!
# Where a batch writes

A property of all the paths a batch of commands names.  A path that every
command diverges from reads after the batch as it did before; a path that is
deleted, or built anew in a way that leaves a mark, is empty or marked.
-/

namespace QuartzFire

open ConfigTree

variable {Name : Type}

/-- All commands of a batch have the property. -/
def Each (holds : Command Name → Prop) (commands : List (Command Name)) :
    Prop :=
  ∀ command ∈ commands, holds command

namespace Each

variable {holds weaker : Command Name → Prop}
  {first second : List (Command Name)}

theorem nil : Each holds [] := by
  intro command member
  cases member

theorem cons {command : Command Name} (head : holds command)
    (tail : Each holds first) : Each holds (command :: first) :=
  List.forall_mem_cons.mpr ⟨head, tail⟩

theorem single {command : Command Name} (only : holds command) :
    Each holds [command] :=
  .cons only .nil

theorem append (left : Each holds first) (right : Each holds second) :
    Each holds (first ++ second) :=
  List.forall_mem_append.mpr ⟨left, right⟩

theorem flatMap {Item : Type} {items : List Item}
    {writes : Item → List (Command Name)}
    (each : ∀ item ∈ items, Each holds (writes item)) :
    Each holds (items.flatMap writes) := by
  intro command member
  obtain ⟨item, inItems, written⟩ := List.mem_flatMap.mp member
  exact each item inItems command written

theorem map {Item : Type} {items : List Item} {write : Item → Command Name}
    (each : ∀ item ∈ items, holds (write item)) :
    Each holds (items.map write) := by
  intro command member
  obtain ⟨item, inItems, rfl⟩ := List.mem_map.mp member
  exact each item inItems

theorem ite {condition : Prop} [Decidable condition]
    (left : condition → Each holds first)
    (right : ¬ condition → Each holds second) :
    Each holds (if condition then first else second) := by
  split
  · exact left ‹_›
  · exact right ‹_›

theorem imp (implies : ∀ command, holds command → weaker command)
    (each : Each holds first) : Each weaker first :=
  fun command member => implies _ (each command member)

end Each

/-- All paths a batch names have the property. -/
abbrev Along (holds : List Name → Prop) (commands : List (Command Name)) :
    Prop :=
  Each (fun command => holds command.path) commands

theorem Along.mono {holds weaker : List Name → Prop}
    {commands : List (Command Name)}
    (implies : ∀ path, holds path → weaker path)
    (along : Along holds commands) : Along weaker commands :=
  Each.imp (fun _ => implies _) along

/-- No command touches the path. -/
abbrev Spares (probe : List Name) (commands : List (Command Name)) : Prop :=
  Along (Diverges · probe) commands

/-- Every command writes at or below the path. -/
abbrev Below (base : List Name) (commands : List (Command Name)) : Prop :=
  Along (base <+: ·) commands

theorem Below.spares {base probe : List Name}
    {commands : List (Command Name)} (below : Below base commands)
    (apart : ∀ more, Diverges (base ++ more) probe) :
    Spares probe commands :=
  below.mono fun _ leads => by
    obtain ⟨more, rfl⟩ := leads
    exact apart more

theorem Below.shorten {base more : List Name}
    {commands : List (Command Name)} (below : Below (base ++ more) commands) :
    Below base commands :=
  below.mono fun _ leads => (List.prefix_append _ _).trans leads

theorem Spares.subtree_eq [DecidableEq Name] {kinds : Kinds Name}
    {probe : List Name} {commands : List (Command Name)}
    (spared : Spares probe commands) (tree : ConfigTree Name) :
    subtree probe (executeAll kinds commands tree) = subtree probe tree :=
  subtree_executeAll_of_diverges spared tree

/-! ## Nothing appears, nothing goes -/

section Staying

variable [DecidableEq Name] {kinds : Kinds Name} {probe : List Name}
  {commands : List (Command Name)} {tree : ConfigTree Name}

/-- Commands of which none makes anything appear at a path: deletes, and what is
written elsewhere. -/
abbrev Wanes (probe : List Name) (commands : List (Command Name)) : Prop :=
  Each (fun command => Diverges command.path probe ∨
    ∃ path, command = .delete path) commands

theorem Wanes.absent (wanes : Wanes probe commands)
    (absent : subtree probe tree = none) :
    subtree probe (executeAll kinds commands tree) = none := by
  induction commands generalizing tree with
  | nil => exact absent
  | cons command rest ih =>
      refine ih (fun other member => wanes other (by simp [member])) ?_
      rcases wanes command (by simp) with apart | ⟨path, rfl⟩
      · rwa [subtree_execute_of_diverges apart]
      · exact subtree_delete_of_absent absent

/-- A path that is deleted is gone if nothing appears there. -/
theorem Wanes.gone (wanes : Wanes probe commands) {path : List Name}
    (proper : path ≠ []) (leads : path <+: probe)
    (member : .delete path ∈ commands) :
    subtree probe (executeAll kinds commands tree) = none := by
  obtain ⟨before, after, rfl⟩ := List.append_of_mem member
  rw [executeAll_append, executeAll, List.foldl_cons]
  exact Wanes.absent (fun other inside => wanes other (by simp [inside]))
    (subtree_delete_below proper leads _)

/-- Commands that change a node below it at most. -/
abbrev Stays (base : List Name) (commands : List (Command Name)) : Prop :=
  Along (fun path => Diverges path base ∨
    ∃ more, more ≠ [] ∧ path = base ++ more) commands

theorem Stays.present {base : List Name} (nodes : NodePath kinds base)
    (stays : Stays base commands) (conforms : Conforms kinds tree)
    (present : (subtree base tree).isSome = true) :
    (subtree base (executeAll kinds commands tree)).isSome = true :=
  conforms.present_executeAll nodes stays present

/-- A node that something is written below is there. -/
theorem Stays.created {base more : List Name} (nodes : NodePath kinds base)
    (stays : Stays base commands) (conforms : Conforms kinds tree)
    (member : .set (base ++ more) ∈ commands) :
    (subtree base (executeAll kinds commands tree)).isSome = true := by
  obtain ⟨before, after, rfl⟩ := List.append_of_mem member
  rw [executeAll_append, executeAll, List.foldl_cons]
  refine Stays.present nodes
    (fun other inside => stays other (by simp [inside]))
    conforms.executeAll.execute ?_
  rw [execute, subtree_set_append nodes]
  rfl

/-- A batch that changes nothing at a path. -/
def Steady (kinds : Kinds Name) (probe : List Name)
    (commands : List (Command Name)) : Prop :=
  ∀ tree, Conforms kinds tree →
    subtree probe (executeAll kinds commands tree) = subtree probe tree

namespace Steady

variable {first second : List (Command Name)}

theorem append (left : Steady kinds probe first)
    (right : Steady kinds probe second) :
    Steady kinds probe (first ++ second) := by
  intro tree conforms
  rw [executeAll_append]
  exact (right _ conforms.executeAll).trans (left tree conforms)

theorem ofSpares (spared : Spares probe first) : Steady kinds probe first :=
  fun tree _ => spared.subtree_eq tree

theorem ofEach
    (each : Each (fun command => Steady kinds probe [command]) first) :
    Steady kinds probe first := by
  induction first with
  | nil => exact .ofSpares .nil
  | cons command rest ih =>
      have head : Steady kinds probe [command] := each command (by simp)
      exact head.append (ih fun other member => each other (by simp [member]))

/-- Creating a node that is missing changes nothing below it. -/
theorem setNode {base more : List Name} (nodes : NodePath kinds base)
    (proper : more ≠ []) (split : probe = base ++ more) :
    Steady kinds probe [.set base] := by
  intro tree _
  have created := subtree_set_append nodes [] tree
  rw [List.append_nil] at created
  rw [executeAll, List.foldl_cons, List.foldl_nil, execute, split,
    subtree_append, created, subtree_append, Option.bind_some]
  cases subtree base tree with
  | some found => rfl
  | none => exact subtree_of_leaf rfl proper

end Steady

end Staying

/-! ## Unchanged, gone or marked -/

section Leaving

variable [DecidableEq Name] {kinds : Kinds Name}
  {mark weaker : ConfigTree Name → Prop} {probe : List Name}
  {first second : List (Command Name)}

/-- A batch leaves at a path what was there, or nothing but what has the
mark. -/
def Leaves (kinds : Kinds Name) (mark : ConfigTree Name → Prop)
    (probe : List Name) (commands : List (Command Name)) : Prop :=
  ∀ tree, Conforms kinds tree →
    subtree probe (executeAll kinds commands tree) = subtree probe tree ∨
      ∀ found, subtree probe (executeAll kinds commands tree) = some found →
        mark found

namespace Leaves

theorem nil : Leaves kinds mark probe [] :=
  fun _ _ => .inl rfl

theorem append (left : Leaves kinds mark probe first)
    (right : Leaves kinds mark probe second) :
    Leaves kinds mark probe (first ++ second) := by
  intro tree conforms
  rw [executeAll_append]
  rcases right _ conforms.executeAll with same | marked
  · rw [same]
    exact left tree conforms
  · exact .inr marked

theorem ofSteady (steady : Steady kinds probe first) :
    Leaves kinds mark probe first :=
  fun tree conforms => .inl (steady tree conforms)

theorem ofSpares (spared : Spares probe first) :
    Leaves kinds mark probe first :=
  .ofSteady (.ofSpares spared)

/-- What is at or below a deleted path is gone. -/
theorem delete {path : List Name} (proper : path ≠ [])
    (above : path <+: probe) : Leaves kinds mark probe [.delete path] := by
  intro tree _
  refine .inr fun found here => ?_
  rw [executeAll, List.foldl_cons, List.foldl_nil, execute,
    subtree_delete_below proper above] at here
  cases here

theorem cons {command : Command Name}
    (head : Leaves kinds mark probe [command])
    (tail : Leaves kinds mark probe first) :
    Leaves kinds mark probe (command :: first) :=
  head.append tail

theorem ofEach
    (each : Each (fun command => Leaves kinds mark probe [command]) first) :
    Leaves kinds mark probe first := by
  induction first with
  | nil => exact .nil
  | cons command rest ih =>
      exact .cons (each command (by simp))
        (ih fun other member => each other (by simp [member]))

/-- A batch whose last command marks what is at the path. -/
theorem last {command : Command Name}
    (marks : ∀ tree, Conforms kinds tree → ∀ found,
      subtree probe (execute kinds tree command) = some found → mark found) :
    Leaves kinds mark probe (first ++ [command]) := by
  intro tree conforms
  rw [executeAll_append]
  exact .inr (marks _ conforms.executeAll)

end Leaves

end Leaving

/-! ## Batches put together from pieces -/

/-- A batch that is some pieces one after another. -/
inductive Composed (piece : List (Command Name) → Prop) :
    List (Command Name) → Prop where
  | nil : Composed piece []
  | one {commands : List (Command Name)} :
      piece commands → Composed piece commands
  | append {first second : List (Command Name)} :
      Composed piece first → Composed piece second →
      Composed piece (first ++ second)

namespace Composed

variable {piece : List (Command Name) → Prop}
  {first second : List (Command Name)}

theorem cons {command : Command Name} (head : piece [command])
    (tail : Composed piece first) : Composed piece (command :: first) :=
  .append (.one head) tail

theorem flatMap {Item : Type} {items : List Item}
    {writes : Item → List (Command Name)}
    (each : ∀ item ∈ items, Composed piece (writes item)) :
    Composed piece (items.flatMap writes) := by
  induction items with
  | nil => exact .nil
  | cons item items ih =>
      rw [List.flatMap_cons]
      exact (each item (by simp)).append
        (ih fun other member => each other (by simp [member]))

theorem map {Item : Type} {items : List Item} {write : Item → Command Name}
    (each : ∀ item ∈ items, piece [write item]) :
    Composed piece (items.map write) := by
  rw [List.map_eq_flatMap]
  exact flatMap fun item member => .one (each item member)

theorem ite {condition : Prop} [Decidable condition]
    (left : condition → Composed piece first)
    (right : ¬ condition → Composed piece second) :
    Composed piece (if condition then first else second) := by
  split
  · exact left ‹_›
  · exact right ‹_›

theorem ofAlong {holds : List Name → Prop}
    (single : ∀ command : Command Name, holds command.path → piece [command])
    (along : Along holds first) : Composed piece first := by
  induction first with
  | nil => exact .nil
  | cons command rest ih =>
      exact .cons (single command (along command (by simp)))
        (ih fun other member => along other (by simp [member]))

theorem each {holds : Command Name → Prop}
    (chunks : ∀ chunk, piece chunk → Each holds chunk)
    (composed : Composed piece first) : Each holds first := by
  induction composed with
  | nil => exact .nil
  | one chunk => exact chunks _ chunk
  | append _ _ left right => exact left.append right

theorem leaves [DecidableEq Name] {kinds : Kinds Name}
    {mark : ConfigTree Name → Prop} {probe : List Name}
    (each : ∀ chunk, piece chunk → Leaves kinds mark probe chunk)
    (composed : Composed piece first) : Leaves kinds mark probe first := by
  induction composed with
  | nil => exact .nil
  | one chunk => exact each _ chunk
  | append _ _ left right => exact left.append right

end Composed

end QuartzFire
