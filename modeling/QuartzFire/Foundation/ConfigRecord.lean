import QuartzFire.Foundation.ConfigSlice

/-!
# Saving a record

A record is a node of fields, each with the commands that bring it from what it
holds to what it is to hold.  Saved under another name, the old node goes first;
a new record that nothing is written of still gets its node.  Each field then
holds what its own commands make of it, what is apart from the record is as it
was, and nothing is deleted that is not there.
-/

namespace QuartzFire.ConfigTree

variable {Name : Type} [DecidableEq Name] {kinds : Kinds Name}

/-! ## Deletes that find something -/

/-- A node or a leaf is at the path, or a value of the leaf above its last
name. -/
def Present (path : List Name) (tree : ConfigTree Name) : Prop :=
  (subtree path tree).isSome = true ∨
    ∃ leaf text, path = leaf ++ [text] ∧ text ∈ leafValues (subtree leaf tree)

/-- Below a node nothing is a value of a leaf. -/
theorem Present.ofNode {base : List Name} {key : Name}
    {tree : ConfigTree Name} (nodes : NodePath kinds base)
    (conforms : Conforms kinds tree) (present : Present (base ++ [key]) tree) :
    (subtree (base ++ [key]) tree).isSome = true := by
  rcases present with there | ⟨leaf, text, same, member⟩
  · exact there
  · obtain ⟨rfl, _⟩ := List.append_inj' same rfl
    cases found : subtree base tree with
    | none =>
        rw [found] at member
        cases member
    | some node =>
        rw [found, conforms.node_of_nodePath nodes found] at member
        cases member

/-- Every `delete` of a batch finds what it names when its turn comes. -/
def Targeted (kinds : Kinds Name) :
    List (Command Name) → ConfigTree Name → Prop
  | [], _ => True
  | command :: rest, tree =>
      (∀ path, command = .delete path → Present path tree) ∧
        Targeted kinds rest (execute kinds tree command)

namespace Targeted

variable {first second : List (Command Name)} {tree : ConfigTree Name}

theorem append (left : Targeted kinds first tree)
    (right : Targeted kinds second (executeAll kinds first tree)) :
    Targeted kinds (first ++ second) tree := by
  induction first generalizing tree with
  | nil => exact right
  | cons command rest ih => exact ⟨left.1, ih left.2 right⟩

theorem later (targeted : Targeted kinds (first ++ second) tree) :
    Targeted kinds second (executeAll kinds first tree) := by
  induction first generalizing tree with
  | nil => exact targeted
  | cons command rest ih => exact ih targeted.2

/-- Nothing is deleted where everything is written. -/
theorem ofSets (sets : ∀ command ∈ first, command.isSet = true) :
    Targeted kinds first tree := by
  induction first generalizing tree with
  | nil => trivial
  | cons command rest ih =>
      refine ⟨?_, ih fun other member => sets other (by simp [member])⟩
      rintro path rfl
      cases sets (.delete path) (by simp)

end Targeted

/-- A batch whose deletes find what they name wherever it starts from what is
given at the path. -/
def Targets (kinds : Kinds Name) (probe : List Name)
    (start : Option (ConfigTree Name)) (commands : List (Command Name)) :
    Prop :=
  ∀ tree, Conforms kinds tree → subtree probe tree = start →
    Targeted kinds commands tree

namespace Targets

variable {probe : List Name} {start : Option (ConfigTree Name)}

theorem ofSets {commands : List (Command Name)}
    (sets : ∀ command ∈ commands, command.isSet = true) :
    Targets kinds probe start commands :=
  fun _ _ _ => .ofSets sets

theorem clear (there : start.isSome = true) :
    Targets kinds probe start [.delete probe] := by
  intro tree _ found
  refine ⟨?_, trivial⟩
  rintro path ⟨⟩
  exact .inl (found ▸ there)

/-- Values that are there can be taken out one after another. -/
theorem deletes {leaf : List Name}
    (values : ValueSet kinds leaf fun found text => text ∈ leafValues found)
    {removed : List Name} (distinct : removed.Nodup) {tree : ConfigTree Name}
    (conforms : Conforms kinds tree)
    (held : ∀ text ∈ removed, text ∈ leafValues (subtree leaf tree)) :
    Targeted kinds (removed.map fun text => .delete (leaf ++ [text])) tree := by
  induction removed generalizing tree with
  | nil => trivial
  | cons text removed ih =>
      rw [List.nodup_cons] at distinct
      constructor
      · rintro path ⟨⟩
        exact .inr ⟨leaf, text, rfl, held text (by simp)⟩
      · refine ih distinct.2 conforms.execute fun other member => ?_
        refine (values.delete conforms text other).mpr ⟨?_, ?_⟩
        · rintro rfl
          exact distinct.1 member
        · exact held other (by simp [member])

theorem exchange {leaf : List Name}
    (values : ValueSet kinds leaf fun found text => text ∈ leafValues found)
    (added : List Name) {removed : List Name} (distinct : removed.Nodup)
    (held : ∀ text ∈ removed, text ∈ leafValues start) :
    Targets kinds leaf start
      ((added.map fun text => .set (leaf ++ [text])) ++
        removed.map fun text => .delete (leaf ++ [text])) := by
  intro tree conforms found
  refine .append (.ofSets ?_) (deletes values distinct conforms.executeAll ?_)
  · intro command member
    obtain ⟨text, _, rfl⟩ := List.mem_map.mp member
    rfl
  · intro text member
    refine (values.sets added conforms text).mpr (.inr ?_)
    rw [found]
    exact held text member

end Targets

/-! ## Fields below a node -/

/-- The fields of a node as blocks, each at its path below it. -/
def fieldsAt (base : List Name)
    (fields : List (List Name × List (Command Name))) : List (Block Name) :=
  fields.map fun field => ⟨[base ++ field.1], field.2⟩

section Fields

omit [DecidableEq Name]

variable {base : List Name} {fields : List (List Name × List (Command Name))}

theorem laid_fieldsAt :
    laid (fieldsAt base fields) = fields.flatMap Prod.snd := by
  rw [laid, fieldsAt, List.flatMap_map]

theorem separate_fieldsAt
    (apart : (fields.map Prod.fst).Pairwise Diverges)
    (each : ∀ field ∈ fields, Below (base ++ field.1) field.2) :
    Separate (fieldsAt base fields) := by
  constructor
  · rw [fieldsAt, List.map_map, List.pairwise_map]
    refine (List.pairwise_map.mp apart).imp fun diverges leaf one other two => ?_
    rw [Function.comp_apply, List.mem_singleton] at one two
    rw [one, two]
    exact (diverges_append_left base).mpr diverges
  · intro block member
    obtain ⟨field, inside, rfl⟩ := List.mem_map.mp member
    exact .ofBelow (each field inside)

end Fields

/-- Fields leave to each other what their deletes are to find. -/
theorem Targeted.fields {base : List Name}
    {fields : List (List Name × List (Command Name))}
    (apart : (fields.map Prod.fst).Pairwise Diverges)
    (below : ∀ field ∈ fields, Below (base ++ field.1) field.2)
    {tree : ConfigTree Name} (conforms : Conforms kinds tree)
    (each : ∀ field ∈ fields, Targets kinds (base ++ field.1)
      (subtree (base ++ field.1) tree) field.2) :
    Targeted kinds (fields.flatMap Prod.snd) tree := by
  induction fields generalizing tree with
  | nil => trivial
  | cons field fields ih =>
      rw [List.map_cons, List.pairwise_cons] at apart
      obtain ⟨across, later⟩ := apart
      rw [List.flatMap_cons]
      refine .append (each field (by simp) tree conforms rfl)
        (ih later (fun other member => below other (by simp [member]))
          conforms.executeAll fun other member => ?_)
      have diverges := across other.1 (List.mem_map_of_mem member)
      have spared : Spares (base ++ other.1) field.2 :=
        (below field (by simp)).spares fun more => by
          rw [List.append_assoc, diverges_append_left]
          simpa using diverges.append more []
      rw [spared.subtree_eq]
      exact each other (by simp [member])

/-! ## The save -/

section Save

omit [DecidableEq Name]

/-- The commands, or the one that makes the node if it is missing and none of
them would. -/
def withNode (base : List Name) (missing : Bool)
    (commands : List (Command Name)) : List (Command Name) :=
  if missing = true ∧ commands.any Command.isSet = false then [.set base]
  else commands

/-- A record to be saved: the node it had, the one it is to have, and what is
written at the paths below that. -/
structure RecordSave (Name : Type) where
  old : Option (List Name)
  base : List Name
  isNew : Bool
  fields : List (List Name × List (Command Name))

abbrev RecordSave.body (save : RecordSave Name) : List (Command Name) :=
  save.fields.flatMap Prod.snd

def RecordSave.commands (save : RecordSave Name) : List (Command Name) :=
  (save.old.toList.map fun path => .delete path) ++
    withNode save.base save.isNew save.body

/-- Each field is written at its own path below the node; nothing is deleted of
a new record.  The old node is another one. -/
structure RecordSave.Proper (kinds : Kinds Name) (save : RecordSave Name) :
    Prop where
  nodes : NodePath kinds save.base
  diverge : (save.fields.map Prod.fst).Pairwise Diverges
  named : ∀ field ∈ save.fields, field.1 ≠ []
  below : ∀ path commands, (path, commands) ∈ save.fields →
    Below (save.base ++ path) commands
  fresh : save.isNew = true → ∀ command ∈ save.body, command.isSet = true
  apart : ∀ path ∈ save.old, Diverges path save.base

end Save

namespace RecordSave.Proper

variable {save : RecordSave Name} {tree : ConfigTree Name}

section

omit [DecidableEq Name]

/-- Everything is written below the node. -/
theorem along (proper : save.Proper kinds) :
    Along (fun path => ∃ more, more ≠ [] ∧ path = save.base ++ more)
      save.body := by
  refine Each.flatMap fun field member command among => ?_
  obtain ⟨more, same⟩ := proper.below field.1 field.2 member command among
  refine ⟨field.1 ++ more, by simp [proper.named field member], ?_⟩
  rw [← same, List.append_assoc]

theorem below_base (proper : save.Proper kinds) :
    Below save.base (withNode save.base save.isNew save.body) := by
  refine .ite (fun _ => .single (List.prefix_refl _)) fun _ => ?_
  refine proper.along.mono fun path placed => ?_
  obtain ⟨more, _, rfl⟩ := placed
  exact List.prefix_append _ _

/-- What diverges from both nodes is as before. -/
theorem elsewhere (proper : save.Proper kinds) {probe : List Name}
    (apart : Diverges save.base probe)
    (old : ∀ path ∈ save.old, Diverges path probe) :
    Spares probe save.commands := by
  refine .append (.map fun path member => old path (by simpa using member)) ?_
  exact proper.below_base.spares fun more => by
    simpa using apart.append more []

theorem spares_old (proper : save.Proper kinds) (more : List Name) :
    Spares (save.base ++ more)
      (save.old.toList.map fun path => Command.delete path) := by
  refine .map fun path member => ?_
  have diverges := proper.apart path (by simpa using member)
  have apart := diverges.append [] more
  rwa [List.append_nil] at apart

/-- Without a write there is nothing to do for a new record. -/
theorem body_eq_nil (proper : save.Proper kinds) (isNew : save.isNew = true)
    (writes : save.body.any Command.isSet = false) : save.body = [] := by
  refine List.eq_nil_iff_forall_not_mem.mpr fun command member => ?_
  have sets := proper.fresh isNew command member
  rw [List.any_eq_false] at writes
  exact writes command member sets

end

/-- The old node is gone. -/
theorem gone (proper : save.Proper kinds) {path probe : List Name}
    (member : path ∈ save.old) (leads : path <+: probe) :
    subtree probe (executeAll kinds save.commands tree) = none := by
  have diverges := proper.apart path member
  have nonempty : path ≠ [] := by
    rintro rfl
    exact not_diverges_nil_left diverges
  obtain ⟨more, rfl⟩ := leads
  refine Wanes.gone (.append ?_ ?_) nonempty (List.prefix_append _ _) ?_
  · exact .map fun path _ => .inr ⟨path, rfl⟩
  · refine Each.imp (fun _ leads => .inl ?_) proper.below_base
    obtain ⟨rest, same⟩ := leads
    rw [← same]
    simpa using (diverges.append more rest).symm
  · rw [RecordSave.commands, Option.mem_def.mp member]
    simp

/-- The node is there afterwards. -/
theorem present (proper : save.Proper kinds) (conforms : Conforms kinds tree)
    (there : save.isNew = false → (subtree save.base tree).isSome = true) :
    (subtree save.base (executeAll kinds save.commands tree)).isSome = true := by
  have spared := proper.spares_old []
  rw [List.append_nil] at spared
  rw [RecordSave.commands, executeAll_append, withNode]
  split
  · have made := subtree_set_append proper.nodes [] (executeAll kinds
      (save.old.toList.map fun path => Command.delete path) tree)
    rw [List.append_nil] at made
    rw [executeAll, List.foldl_cons, List.foldl_nil, execute, made]
    rfl
  · rename_i writes
    have stays : Stays save.base save.body :=
      proper.along.mono fun path placed => .inr placed
    cases isNew : save.isNew with
    | false =>
        refine stays.present proper.nodes conforms.executeAll ?_
        rw [spared.subtree_eq]
        exact there isNew
    | true =>
        rw [isNew, not_and, Bool.not_eq_false] at writes
        obtain ⟨command, member, sets⟩ := List.any_eq_true.mp (writes rfl)
        obtain ⟨more, _, same⟩ := proper.along command member
        have created : .set (save.base ++ more) ∈ save.body := by
          cases command with
          | set path => exact same ▸ member
          | delete path => cases sets
        exact stays.created proper.nodes conforms.executeAll created

/-- A field holds what its own commands make of it. -/
theorem field (proper : save.Proper kinds) (conforms : Conforms kinds tree)
    {mark : Option (ConfigTree Name) → Prop} {commands : List (Command Name)}
    {path rest : List Name} (member : (path, commands) ∈ save.fields)
    (yields : Yields kinds (save.base ++ path ++ rest)
      (subtree (save.base ++ path ++ rest) tree) mark commands) :
    mark (subtree (save.base ++ path ++ rest)
      (executeAll kinds save.commands tree)) := by
  have spared := proper.spares_old (path ++ rest)
  rw [← List.append_assoc] at spared
  have start : subtree (save.base ++ path ++ rest) (executeAll kinds _ tree) =
      subtree (save.base ++ path ++ rest) tree := spared.subtree_eq tree
  rw [RecordSave.commands, executeAll_append, withNode]
  split
  · rename_i writes
    have nothing := proper.body_eq_nil writes.1 writes.2
    have steady : Steady kinds (save.base ++ path ++ rest) [.set save.base] :=
      .setNode proper.nodes (by simp [proper.named _ member])
        (List.append_assoc ..)
    have idle : commands = [] := by
      rw [List.flatMap_eq_nil_iff] at nothing
      exact nothing _ member
    rw [steady _ conforms.executeAll, start]
    subst idle
    exact yields tree conforms rfl
  · rw [← start] at yields
    rw [RecordSave.body, ← @laid_fieldsAt Name save.base]
    exact yields.at_leaf (save.base ++ path)
      (separate_fieldsAt proper.diverge fun field =>
        proper.below field.1 field.2)
      (List.mem_map_of_mem member) (List.prefix_append _ _) conforms.executeAll

theorem field_at (proper : save.Proper kinds) (conforms : Conforms kinds tree)
    {mark : Option (ConfigTree Name) → Prop} {commands : List (Command Name)}
    {path : List Name} (member : (path, commands) ∈ save.fields)
    (yields : Yields kinds (save.base ++ path) (subtree (save.base ++ path) tree)
      mark commands) :
    mark (subtree (save.base ++ path)
      (executeAll kinds save.commands tree)) := by
  have below := @field _ _ _ _ _ proper conforms mark _ path [] member
  rw [List.append_nil] at below
  exact below yields

/-- Nothing is deleted that is not there. -/
theorem targeted (proper : save.Proper kinds) (conforms : Conforms kinds tree)
    (old : ∀ path ∈ save.old, (subtree path tree).isSome = true)
    (each : ∀ path commands, (path, commands) ∈ save.fields →
      Targets kinds (save.base ++ path) (subtree (save.base ++ path) tree)
        commands) :
    Targeted kinds save.commands tree := by
  refine .append ?_ ?_
  · cases renamed : save.old with
    | none => trivial
    | some path =>
        refine ⟨?_, trivial⟩
        rintro _ ⟨⟩
        exact .inl (old path renamed)
  · rw [withNode]
    split
    · exact .ofSets (by simp [Command.isSet])
    · refine .fields proper.diverge (fun field => proper.below field.1 field.2)
        conforms.executeAll fun field member => ?_
      rw [(proper.spares_old field.1).subtree_eq]
      exact each field.1 field.2 member

end RecordSave.Proper

end QuartzFire.ConfigTree
