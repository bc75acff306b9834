import Mathlib.Data.List.Basic

/-!
# Directory trees

Copying and removing a directory step by step, where any step may fail and
leaves what was done before it.
-/

namespace QuartzFire

/-- The entries of a directory, in the order they are read. -/
inductive DirectoryTree where
  | nil
  | file (name content : String) (rest : DirectoryTree)
  | dir (name : String) (inner rest : DirectoryTree)
  deriving DecidableEq

namespace DirectoryTree

inductive Entry where
  | file (content : String)
  | dir (inner : DirectoryTree)
  deriving DecidableEq

def lookup (name : String) : DirectoryTree → Option Entry
  | .nil => none
  | .file own content rest =>
      if own = name then some (.file content) else rest.lookup name
  | .dir own inner rest =>
      if own = name then some (.dir inner) else rest.lookup name

def cons (name : String) (entry : Entry) (rest : DirectoryTree) :
    DirectoryTree :=
  match entry with
  | .file content => .file name content rest
  | .dir inner => .dir name inner rest

/-- An entry takes the place of one with its name, or comes last. -/
def put (name : String) (entry : Entry) : DirectoryTree → DirectoryTree
  | .nil => cons name entry .nil
  | .file own content rest =>
      if own = name then cons name entry rest
      else .file own content (rest.put name entry)
  | .dir own inner rest =>
      if own = name then cons name entry rest
      else .dir own inner (rest.put name entry)

def append : DirectoryTree → DirectoryTree → DirectoryTree
  | .nil, tree => tree
  | .file name content rest, tree => .file name content (rest.append tree)
  | .dir name inner rest, tree => .dir name inner (rest.append tree)

def names : DirectoryTree → List String
  | .nil => []
  | .file name _ rest => name :: rest.names
  | .dir name _ rest => name :: rest.names

/-- No two entries of a directory have one name. -/
def Proper : DirectoryTree → Prop
  | .nil => True
  | .file name _ rest => name ∉ rest.names ∧ rest.Proper
  | .dir name inner rest => name ∉ rest.names ∧ inner.Proper ∧ rest.Proper

instance decidableProper : (tree : DirectoryTree) → Decidable tree.Proper
  | .nil => .isTrue trivial
  | .file name _ rest =>
      have := decidableProper rest
      inferInstanceAs (Decidable (name ∉ rest.names ∧ rest.Proper))
  | .dir name inner rest =>
      have := decidableProper inner
      have := decidableProper rest
      inferInstanceAs
        (Decidable (name ∉ rest.names ∧ inner.Proper ∧ rest.Proper))

/-! ## Operations that may fail -/

/-- After how many steps an operation fails, if it does, and what is left where
the failing step was to write a file. -/
structure Fault where
  after : Option Nat := none
  half : Option String := none

/-- One more step, unless it fails. -/
def Fault.step (fault : Fault) : Option Fault :=
  match fault.after with
  | none => some fault
  | some 0 => none
  | some (steps + 1) => some { fault with after := some steps }

def Entry.inner : Option Entry → DirectoryTree
  | some (.dir inner) => inner
  | _ => .nil

/-- Copy the entries into a directory.  No fault is left where it failed. -/
def copyEntries : DirectoryTree → DirectoryTree → Fault →
    DirectoryTree × Option Fault
  | .nil, dst, fault => (dst, some fault)
  | .file name content rest, dst, fault =>
      match dst.lookup name with
      | some (.dir _) => (dst, none)
      | _ =>
          match fault.step with
          | some fault => copyEntries rest (dst.put name (.file content)) fault
          | none =>
              match fault.half with
              | some half => (dst.put name (.file half), none)
              | none => (dst, none)
  | .dir name inner rest, dst, fault =>
      match dst.lookup name with
      | some (.file _) => (dst, none)
      | present =>
          match fault.step with
          | none => (dst, none)
          | some fault =>
              match copyEntries inner (Entry.inner present) fault with
              | (copy, some fault) =>
                  copyEntries rest (dst.put name (.dir copy)) fault
              | (copy, none) => (dst.put name (.dir copy), none)

/-- `copy_dir`: the target is created if it is absent. -/
def copyDir (src : DirectoryTree) (dst : Option DirectoryTree) (fault : Fault) :
    Option DirectoryTree × Bool :=
  match fault.step with
  | none => (dst, false)
  | some fault =>
      let (copy, left) := copyEntries src (dst.getD .nil) fault
      (some copy, left.isSome)

/-- A directory goes once it is empty. -/
def removeEntries : DirectoryTree → Fault → DirectoryTree × Option Fault
  | .nil, fault => (.nil, some fault)
  | .file name content rest, fault =>
      match fault.step with
      | some fault => removeEntries rest fault
      | none => (.file name content rest, none)
  | .dir name inner rest, fault =>
      match removeEntries inner fault with
      | (left, none) => (.dir name left rest, none)
      | (_, some fault) =>
          match fault.step with
          | some fault => removeEntries rest fault
          | none => (.dir name .nil rest, none)

/-- `remove_dir_all`: what is left, nothing if it succeeds. -/
def removeDirAll (tree : DirectoryTree) (fault : Fault) :
    Option DirectoryTree :=
  match removeEntries tree fault with
  | (left, none) => some left
  | (_, some fault) =>
      match fault.step with
      | some _ => none
      | none => some .nil

/-! ## A copy in an empty place -/

theorem append_assoc (first second third : DirectoryTree) :
    (first.append second).append third =
      first.append (second.append third) := by
  induction first with
  | nil => rfl
  | file name content rest ih => exact congrArg (DirectoryTree.file name content) ih
  | dir name inner rest _ ih => exact congrArg (DirectoryTree.dir name inner) ih

theorem append_nil (tree : DirectoryTree) : tree.append .nil = tree := by
  induction tree with
  | nil => rfl
  | file name content rest ih => exact congrArg (DirectoryTree.file name content) ih
  | dir name inner rest _ ih => exact congrArg (DirectoryTree.dir name inner) ih

theorem names_append (first second : DirectoryTree) :
    (first.append second).names = first.names ++ second.names := by
  induction first with
  | nil => rfl
  | file name content rest ih => exact congrArg (name :: ·) ih
  | dir name inner rest _ ih => exact congrArg (name :: ·) ih

theorem lookup_eq_none {name : String} {tree : DirectoryTree}
    (absent : name ∉ tree.names) : tree.lookup name = none := by
  induction tree with
  | nil => rfl
  | file own content rest ih =>
      rw [names, List.mem_cons, not_or] at absent
      rw [lookup, if_neg (Ne.symm absent.1)]
      exact ih absent.2
  | dir own inner rest _ ih =>
      rw [names, List.mem_cons, not_or] at absent
      rw [lookup, if_neg (Ne.symm absent.1)]
      exact ih absent.2

theorem put_of_absent {name : String} {tree : DirectoryTree}
    (absent : name ∉ tree.names) (entry : Entry) :
    tree.put name entry = tree.append (cons name entry .nil) := by
  induction tree with
  | nil => rfl
  | file own content rest ih =>
      rw [names, List.mem_cons, not_or] at absent
      rw [put, if_neg (Ne.symm absent.1), ih absent.2]
      rfl
  | dir own inner rest _ ih =>
      rw [names, List.mem_cons, not_or] at absent
      rw [put, if_neg (Ne.symm absent.1), ih absent.2]
      rfl

theorem names_cons (name : String) (entry : Entry) :
    (cons name entry .nil).names = [name] := by
  cases entry <;> rfl

/-- Entries that are all copied, none over another, come after those there. -/
theorem copyEntries_apart {src dst copy : DirectoryTree} {fault left : Fault}
    (proper : src.Proper) (apart : ∀ name ∈ src.names, name ∉ dst.names)
    (copied : copyEntries src dst fault = (copy, some left)) :
    copy = dst.append src := by
  induction src generalizing dst copy fault left with
  | nil =>
      cases copied
      exact (append_nil dst).symm
  | file name content rest ih =>
      obtain ⟨unique, proper⟩ := proper
      have absent : name ∉ dst.names := apart name List.mem_cons_self
      rw [copyEntries, lookup_eq_none absent] at copied
      dsimp only at copied
      split at copied
      · rename_i next _
        rw [put_of_absent absent] at copied
        rw [ih proper ?_ copied, append_assoc]
        · rfl
        · intro other member
          rw [names_append, names_cons, List.mem_append, List.mem_singleton,
            not_or]
          refine ⟨apart other (List.mem_cons_of_mem _ member), ?_⟩
          rintro rfl
          exact unique member
      · split at copied
        · cases copied
        · cases copied
  | dir name inner rest inside ih =>
      obtain ⟨unique, own, proper⟩ := proper
      have absent : name ∉ dst.names := apart name List.mem_cons_self
      rw [copyEntries, lookup_eq_none absent] at copied
      dsimp only at copied
      split at copied
      · cases copied
      · rename_i next _
        split at copied
        · rename_i part after copiedInner
          have same : part = inner :=
            inside own (fun other _ => List.not_mem_nil) copiedInner
          rw [same, put_of_absent absent] at copied
          rw [ih proper ?_ copied, append_assoc]
          · rfl
          · intro other member
            rw [names_append, names_cons, List.mem_append, List.mem_singleton,
              not_or]
            refine ⟨apart other (List.mem_cons_of_mem _ member), ?_⟩
            rintro rfl
            exact unique member
        · cases copied

/-- A copy that succeeds where nothing was is the same directory. -/
theorem copyDir_absent {src : DirectoryTree} {copy : Option DirectoryTree}
    {fault : Fault} (proper : src.Proper)
    (copied : copyDir src none fault = (copy, true)) : copy = some src := by
  unfold copyDir at copied
  split at copied
  · cases copied
  · rename_i next _
    cases entries : copyEntries src .nil next with
    | mk made left =>
        cases left with
        | none =>
            rw [Option.getD_none, entries] at copied
            cases copied
        | some left =>
            rw [Option.getD_none, entries] at copied
            cases copied
            have same := copyEntries_apart proper
              (fun name _ => List.not_mem_nil) entries
            exact congrArg some same

end DirectoryTree

end QuartzFire
