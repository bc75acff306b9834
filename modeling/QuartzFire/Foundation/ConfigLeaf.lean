import QuartzFire.Foundation.ConfigTree

/-!
# What a leaf holds

A value of a leaf stays there until it is deleted, the leaf is deleted, or a
node that the leaf is in; a leaf without values is there once it is set.
-/

namespace QuartzFire

namespace ConfigTree

variable {Name : Type}

/-- The values of a leaf. -/
def texts : ConfigTree Name → List Name
  | .value text => [text]
  | .values texts => texts
  | _ => []

variable [DecidableEq Name]

/-- The value is one of the leaf at the path. -/
def Holds (path : List Name) (text : Name) (tree : ConfigTree Name) : Prop :=
  ∃ leaf, subtree path tree = some leaf ∧ text ∈ leaf.texts

theorem holds_nil {text : Name} {tree : ConfigTree Name} :
    Holds [] text tree ↔ text ∈ tree.texts := by
  simp [Holds, subtree]

theorem holds_cons {key : Name} {path : List Name} {text : Name}
    {tree : ConfigTree Name} :
    Holds (key :: path) text tree ↔
      ∃ child, tree.child key = some child ∧ Holds path text child := by
  simp only [Holds, subtree, Option.bind_eq_some_iff]
  constructor
  · rintro ⟨leaf, ⟨child, found, below⟩, among⟩
    exact ⟨child, found, leaf, below, among⟩
  · rintro ⟨child, found, leaf, below, among⟩
    exact ⟨leaf, ⟨child, found, below⟩, among⟩

/-- A value at a path is in nodes all the way. -/
theorem Holds.isSome {path front : List Name} {text : Name}
    {tree : ConfigTree Name} (holds : Holds path text tree)
    (leads : front <+: path) : (subtree front tree).isSome := by
  obtain ⟨more, rfl⟩ := leads
  obtain ⟨leaf, found, _⟩ := holds
  rw [subtree_append] at found
  obtain ⟨inner, at_, _⟩ := Option.bind_eq_some_iff.mp found
  rw [at_]
  rfl

theorem Holds.is_node {path : List Name} {text : Name} {tree : ConfigTree Name}
    (holds : Holds path text tree) (proper : path ≠ []) :
    ∃ entries, tree = .node entries := by
  obtain ⟨key, rest, rfl⟩ := List.exists_cons_of_ne_nil proper
  obtain ⟨child, found, _⟩ := holds_cons.mp holds
  cases tree with
  | node entries => exact ⟨entries, rfl⟩
  | _ => cases found

theorem mem_texts_addValue {text : Name} {leaf : ConfigTree Name}
    (among : text ∈ leaf.texts) (added : Name) :
    text ∈ (addValue (some leaf) added).texts := by
  cases leaf with
  | value old =>
      rw [addValue]
      split
      · exact among
      · rw [List.mem_singleton.mp among]
        exact List.mem_cons_self
  | values olds =>
      rw [addValue]
      split
      · exact among
      · exact List.mem_append_left _ among
  | scalar _ | null | node _ => cases among

theorem mem_texts_dropIn {text dropped key : Name} {tree leaf : ConfigTree Name}
    (among : text ∈ leaf.texts) (other : text ≠ dropped) :
    ∃ left, (tree.dropIn key dropped leaf).child key = some left ∧
      text ∈ left.texts := by
  have kept : ∃ left, dropValue dropped leaf = some left ∧
      text ∈ left.texts := by
    cases leaf with
    | value old =>
        have same := List.mem_singleton.mp among
        subst same
        exact ⟨.value text, if_neg other, among⟩
    | values olds =>
        have stays : text ∈ olds.filter (· ≠ dropped) :=
          List.mem_filter.mpr ⟨among, by simpa using other⟩
        rw [dropValue]
        split
        · rename_i none
          rw [none] at stays
          cases stays
        · rename_i last one
          rw [one] at stays
          exact ⟨_, rfl, stays⟩
        · rename_i left _ _
          exact ⟨_, rfl, stays⟩
    | scalar _ | null | node _ => cases among
  obtain ⟨left, drops, stays⟩ := kept
  refine ⟨left, ?_, stays⟩
  rw [dropIn, drops]
  exact child_put_self tree key left

theorem child_set_of_ne {kinds : Kinds Name} {key other : Name}
    (different : other ≠ key) (path : List Name) (tree : ConfigTree Name) :
    (ConfigTree.set kinds (key :: path) tree).child other = tree.child other := by
  unfold ConfigTree.set
  split
  · exact child_put_of_ne different _ _
  · exact child_put_of_ne different _ _
  · exact child_put_of_ne different _ _
  · exact child_put_of_ne different _ _
  · rfl

theorem Holds.of_child {key : Name} {path : List Name} {text : Name}
    {tree other : ConfigTree Name} (holds : Holds (key :: path) text tree)
    (same : other.child key = tree.child key) :
    Holds (key :: path) text other := by
  obtain ⟨child, found, below⟩ := holds_cons.mp holds
  exact holds_cons.mpr ⟨child, same.trans found, below⟩

/-- Writes add to a leaf of several values. -/
theorem Holds.set {kinds : Kinds Name} {base : List Name} {key text : Name}
    (nodes : NodePath kinds base) (multi : kinds.below base [key] = .multi)
    {tree : ConfigTree Name} (holds : Holds (base ++ [key]) text tree)
    (path : List Name) :
    Holds (base ++ [key]) text (ConfigTree.set kinds path tree) := by
  induction base generalizing kinds tree path with
  | nil =>
      cases path with
      | nil => exact holds
      | cons first rest =>
          by_cases same : key = first
          · subst same
            have kind : kinds [key] = .multi := multi
            obtain ⟨leaf, found, among⟩ := holds_cons.mp holds
            match rest with
            | [] =>
                unfold ConfigTree.set
                simp only [kind]
                exact holds
            | [added] =>
                rw [set_multi kind, found]
                exact holds_cons.mpr ⟨_, child_put_self _ _ _,
                  holds_nil.mpr (mem_texts_addValue (holds_nil.mp among) added)⟩
            | _ :: _ :: _ =>
                unfold ConfigTree.set
                simp only [kind]
                exact holds
          · exact holds.of_child (child_set_of_ne same rest tree)
  | cons step base ih =>
      cases path with
      | nil => exact holds
      | cons first rest =>
          by_cases same : step = first
          · subst same
            obtain ⟨child, found, below⟩ := holds_cons.mp holds
            rw [set_node nodes.1, found]
            exact holds_cons.mpr ⟨_, child_put_self _ _ _,
              ih nodes.2 multi below rest⟩
          · exact holds.of_child (child_set_of_ne same rest tree)

theorem child_delete_of_ne {key other : Name} (different : other ≠ key)
    (path : List Name) (tree : ConfigTree Name) :
    (ConfigTree.delete (key :: path) tree).child other = tree.child other := by
  have diverges : Diverges (key :: path) [other] :=
    diverges_cons.mpr fun same => absurd same.symm different
  have spared : subtree [other] (ConfigTree.delete (key :: path) tree) =
      subtree [other] tree := subtree_delete_of_diverges diverges
  rwa [subtree_singleton, subtree_singleton] at spared

/-- A value goes with a node around it, with its leaf, or by itself. -/
theorem Holds.delete {base : List Name} {key text : Name}
    {tree : ConfigTree Name} (holds : Holds (base ++ [key]) text tree)
    {path : List Name} (around : path ≠ [] → ¬ path <+: base ++ [key])
    (other : path ≠ base ++ [key, text]) :
    Holds (base ++ [key]) text (ConfigTree.delete path tree) := by
  induction base generalizing tree path with
  | nil =>
      cases path with
      | nil => exact holds
      | cons first rest =>
      cases rest with
      | nil =>
          have different : key ≠ first := by
            rintro rfl
            exact around (List.cons_ne_nil _ _) (List.prefix_refl _)
          exact holds.of_child (child_delete_of_ne different [] tree)
      | cons next rest =>
          by_cases same : key = first
          · subst same
            obtain ⟨leaf, found, among⟩ := holds_cons.mp holds
            rw [holds_nil] at among
            rw [ConfigTree.delete, found]
            cases leaf with
            | node _ | scalar _ | null => cases among
            | value _ | values _ =>
                dsimp only
                split
                · rename_i last
                  subst last
                  have different : text ≠ next := by
                    rintro rfl
                    exact other rfl
                  obtain ⟨left, at_, stays⟩ :=
                    @mem_texts_dropIn Name _ _ _ key tree _ among different
                  exact holds_cons.mpr ⟨left, at_, holds_nil.mpr stays⟩
                · exact holds
          · exact holds.of_child (child_delete_of_ne same _ tree)
  | cons step base ih =>
      cases path with
      | nil => exact holds
      | cons first rest =>
      cases rest with
      | nil =>
          have different : step ≠ first := by
            rintro rfl
            exact around (List.cons_ne_nil _ _) ⟨base ++ [key], rfl⟩
          exact holds.of_child (child_delete_of_ne different [] tree)
      | cons next rest =>
          by_cases same : step = first
          · subst same
            obtain ⟨child, found, below⟩ := holds_cons.mp holds
            obtain ⟨entries, rfl⟩ := below.is_node (by simp)
            rw [ConfigTree.delete, found]
            refine holds_cons.mpr ⟨_, child_put_self _ _ _, ih below ?_ ?_⟩
            · intro _ leads
              exact around (List.cons_ne_nil _ _)
                (List.cons_prefix_cons.mpr ⟨rfl, leads⟩)
            · rintro same
              exact other (congrArg (step :: ·) same)
          · exact holds.of_child (child_delete_of_ne same _ tree)

/-- A leaf without values comes by a write of it alone. -/
theorem subtree_set_of_absent {kinds : Kinds Name} {base : List Name}
    {key : Name} (nodes : NodePath kinds base)
    (valueless : kinds.below base [key] = .valueless) {tree : ConfigTree Name}
    (absent : subtree (base ++ [key]) tree = none) {path : List Name}
    (other : path ≠ base ++ [key]) :
    subtree (base ++ [key]) (ConfigTree.set kinds path tree) = none := by
  induction base generalizing kinds tree path with
  | nil =>
      rw [List.nil_append, subtree_singleton] at absent ⊢
      cases path with
      | nil => exact absent
      | cons first rest =>
          by_cases same : key = first
          · subst same
            have kind : kinds [key] = .valueless := valueless
            cases rest with
            | nil => exact absurd rfl other
            | cons next rest =>
                unfold ConfigTree.set
                simp only [kind]
                exact absent
          · rw [child_set_of_ne same]
            exact absent
  | cons step base ih =>
      rw [List.cons_append, subtree] at absent ⊢
      cases path with
      | nil => exact absent
      | cons first rest =>
          by_cases same : step = first
          · subst same
            rw [set_node nodes.1, child_put_self, Option.bind_some]
            apply ih nodes.2 valueless
            · cases found : tree.child step with
              | none => exact subtree_of_leaf rfl (by simp)
              | some child =>
                  rw [found] at absent
                  exact absent
            · rintro rfl
              exact other rfl
          · rw [child_set_of_ne same]
            exact absent

end ConfigTree

end QuartzFire
