import Mathlib.Data.List.Forall2
import QuartzFire.Foundation.ConfigRebuild

/-!
# Deciding whether a configuration conforms

Boolean checks of a closed tree, sound for the inductive notions, so that a
concrete configuration can be shown to conform by evaluation.
-/

namespace QuartzFire

namespace ConfigTree

variable {Name : Type}

section Checks

variable [DecidableEq Name]

mutual

/-- Whether an entry fits, and its lone values are acceptable. -/
def fitsCheck (accepts : Name → Bool) (kinds : Kinds Name) (key : Name) :
    ConfigTree Name → Bool
  | .value text =>
      accepts text && (kinds [key] = .single || kinds [key] = .multi)
  | .values (first :: second :: texts) =>
      kinds [key] = .multi && (first :: second :: texts).Nodup
  | .node [] => kinds [key] = .valueless || kinds [key] = .node
  | .node (entry :: entries) => kinds [key] = .node &&
      ((entry :: entries).map Prod.fst).Nodup &&
      entriesCheck accepts (kinds.below [key]) (entry :: entries)
  | _ => false

def entriesCheck (accepts : Name → Bool) (kinds : Kinds Name) :
    List (Name × ConfigTree Name) → Bool
  | [] => true
  | (key, tree) :: rest =>
      fitsCheck accepts kinds key tree && entriesCheck accepts kinds rest

end

theorem entriesCheck_iff {accepts : Name → Bool} {kinds : Kinds Name}
    {entries : List (Name × ConfigTree Name)} :
    entriesCheck accepts kinds entries = true ↔
      ∀ entry ∈ entries, fitsCheck accepts kinds entry.1 entry.2 = true := by
  induction entries with
  | nil => simp [entriesCheck]
  | cons entry entries ih => simp [entriesCheck, ih]

theorem findEntry_mem {key : Name} {tree : ConfigTree Name}
    {entries : List (Name × ConfigTree Name)}
    (found : findEntry key entries = some tree) : (key, tree) ∈ entries := by
  induction entries with
  | nil => cases found
  | cons entry entries ih =>
      rw [findEntry] at found
      split at found
      · rename_i same
        cases found
        subst same
        exact List.mem_cons_self
      · exact List.mem_cons_of_mem _ (ih found)

theorem sizeOf_lt_of_mem {Name : Type}
    {entries : List (Name × ConfigTree Name)} {entry : Name × ConfigTree Name}
    (member : entry ∈ entries) :
    sizeOf entry.2 < sizeOf (ConfigTree.node entries) := by
  have inside := List.sizeOf_lt_of_mem member
  obtain ⟨key, tree⟩ := entry
  simp only [Prod.mk.sizeOf_spec, node.sizeOf_spec] at inside ⊢
  omega

/-- What passes the check fits and has acceptable values everywhere. -/
theorem fitsCheck_sound {accepts : Name → Bool} {kinds : Kinds Name}
    {key : Name} {tree : ConfigTree Name}
    (passes : fitsCheck accepts kinds key tree = true) :
    Fits kinds key tree ∧ ∀ path text,
      subtree path tree = some (.value text) → accepts text = true := by
  match tree with
  | .value text =>
      simp only [fitsCheck, Bool.and_eq_true, Bool.or_eq_true,
        decide_eq_true_eq] at passes
      refine ⟨passes.2.elim .single .one, ?_⟩
      intro path other found
      cases path with
      | nil =>
          cases found
          exact passes.1
      | cons _ _ =>
          rw [subtree_of_leaf rfl (by simp)] at found
          cases found
  | .values (first :: second :: texts) =>
      simp only [fitsCheck, Bool.and_eq_true, decide_eq_true_eq] at passes
      refine ⟨.several passes.1 passes.2, ?_⟩
      intro path other found
      cases path with
      | nil => cases found
      | cons _ _ =>
          rw [subtree_of_leaf rfl (by simp)] at found
          cases found
  | .values [] | .values [_] | .scalar _ | .null =>
      simp [fitsCheck] at passes
  | .node [] =>
      simp only [fitsCheck, Bool.or_eq_true, decide_eq_true_eq] at passes
      refine ⟨passes.elim .valueless fun isNode =>
        .node isNode (by simp) (by simp), ?_⟩
      intro path other found
      cases path with
      | nil => cases found
      | cons _ _ =>
          rw [subtree_of_leaf rfl (by simp)] at found
          cases found
  | .node (entry :: entries) =>
      simp only [fitsCheck, Bool.and_eq_true, decide_eq_true_eq,
        entriesCheck_iff] at passes
      obtain ⟨⟨isNode, distinct⟩, below⟩ := passes
      refine ⟨.node isNode distinct fun other member =>
        (fitsCheck_sound (below other member)).1, ?_⟩
      intro path text found
      cases path with
      | nil => cases found
      | cons key rest =>
          obtain ⟨child, inside, atRest⟩ := Option.bind_eq_some_iff.mp found
          have member := findEntry_mem inside
          exact (fitsCheck_sound (below (key, child) member)).2 rest text atRest
termination_by sizeOf tree
decreasing_by
  · exact sizeOf_lt_of_mem member
  · exact sizeOf_lt_of_mem member

/-- Whether a closed configuration is one a device renders. -/
def conformsCheck (kinds : Kinds Name) (tree : ConfigTree Name) : Bool :=
  (tree.entries.map Prod.fst).Nodup &&
    entriesCheck (fun _ => true) kinds tree.entries

theorem conforms_of_check {kinds : Kinds Name} {tree : ConfigTree Name}
    (isNode : tree = .node tree.entries)
    (passes : conformsCheck kinds tree = true) : Conforms kinds tree := by
  simp only [conformsCheck, Bool.and_eq_true, decide_eq_true_eq,
    entriesCheck_iff] at passes
  exact ⟨isNode, passes.1, fun entry member =>
    (fitsCheck_sound (passes.2 entry member)).1⟩

/-- Whether all that is at a path of some shape, where some names are free,
is acceptable. -/
def allAt (accepts : Name → ConfigTree Name → Bool) :
    List (Option Name) → ConfigTree Name → Bool
  | [], _ => true
  | [slot], tree => tree.entries.all fun entry =>
      slot.any (· ≠ entry.1) || accepts entry.1 entry.2
  | slot :: rest, tree => tree.entries.all fun entry =>
      slot.any (· ≠ entry.1) || allAt accepts rest entry.2

theorem allAt_sound {accepts : Name → ConfigTree Name → Bool}
    {slots : List (Option Name)} (path : List Name) {key : Name}
    {tree leaf : ConfigTree Name} (passes : allAt accepts slots tree = true)
    (fits : List.Forall₂ (fun slot name => slot.all (· = name) = true) slots
      (path ++ [key]))
    (found : subtree (path ++ [key]) tree = some leaf) :
    accepts key leaf = true := by
  induction path generalizing slots tree with
  | nil =>
      obtain ⟨slot, _, same, rest, rfl⟩ := List.forall₂_cons_right_iff.mp fits
      rw [List.forall₂_nil_right_iff] at rest
      subst rest
      rw [List.nil_append, subtree_singleton] at found
      have entry := List.all_eq_true.mp passes _ (findEntry_mem found)
      cases slot with
      | none => simpa using entry
      | some name => simp_all
  | cons first path ih =>
      obtain ⟨slot, rest, same, below, rfl⟩ := List.forall₂_cons_right_iff.mp fits
      obtain ⟨sub, inside, atRest⟩ := Option.bind_eq_some_iff.mp found
      obtain ⟨next, more, rfl⟩ : ∃ next more, rest = next :: more := by
        cases rest with
        | nil => cases path <;> cases below
        | cons next more => exact ⟨next, more, rfl⟩
      have entry := List.all_eq_true.mp passes _ (findEntry_mem inside)
      refine ih ?_ below atRest
      cases slot with
      | none => simpa using entry
      | some name => simp_all

end Checks

end ConfigTree

end QuartzFire
