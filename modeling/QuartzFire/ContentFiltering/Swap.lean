import Mathlib.Data.Fintype.Option
import Mathlib.Data.Fintype.Sigma
import Mathlib.Data.Fintype.Sum
import Mathlib.Tactic.DeriveFintype
import QuartzFire.Foundation.DirectoryTree

/-!
# Swapping the blocklists

The live lists are moved aside, the staged ones into their place, and where
that fails the old ones are moved back.  Each move is a rename, or a copy and a
removal where the directories lie on different file systems.
-/

namespace QuartzFire.ContentFiltering

open DirectoryTree (Fault copyDir removeDirAll copyDir_absent)

/-! ## Moves -/

inductive Rename where
  | works
  | crossDevice
  | fails
  deriving DecidableEq

/-- How the steps of a move go. -/
structure MoveFault where
  rename : Rename := .works
  copy : Fault := {}
  remove : Fault := {}

/-- What came of a move; of a failing copy or removal, whether it changed
nothing. -/
inductive MoveResult where
  | renamed
  | copied
  | refused
  | copyFailed (unchanged : Bool)
  | removeFailed (unchanged : Bool)
  deriving DecidableEq, Fintype

def MoveResult.isOk : MoveResult → Bool
  | .renamed | .copied => true
  | _ => false

structure Moved where
  result : MoveResult
  src : Option DirectoryTree
  dst : Option DirectoryTree

/-- A directory is not renamed onto one that has entries. -/
def moveDir (fault : MoveFault) (src dst : Option DirectoryTree) : Moved :=
  match fault.rename, src with
  | .works, some tree =>
      match dst with
      | none | some .nil => ⟨.renamed, none, some tree⟩
      | _ => ⟨.refused, src, dst⟩
  | .crossDevice, some tree =>
      match copyDir tree dst fault.copy with
      | (copy, false) => ⟨.copyFailed (copy = dst), src, copy⟩
      | (copy, true) =>
          match removeDirAll tree fault.remove with
          | none => ⟨.copied, none, copy⟩
          | some left => ⟨.removeFailed (left = tree), some left, copy⟩
  | _, _ => ⟨.refused, src, dst⟩

/-! ## The swap -/

/-- The live lists, what is left of earlier ones, and the staged lists. -/
structure Disk where
  live : Option DirectoryTree
  old : Option DirectoryTree
  root : Option DirectoryTree

structure Faults where
  clear : Fault := {}
  archive : MoveFault := {}
  activate : MoveFault := {}
  restore : MoveFault := {}
  drop : Fault := {}

inductive SwapError where
  | archiving
  | activating
  deriving DecidableEq

/-- What came of the moves that were made, and whether old lists were left in
the way. -/
structure Moves where
  stale : Bool
  archive : Option MoveResult := none
  activate : Option MoveResult := none
  restore : Option MoveResult := none
  deriving DecidableEq, Fintype

structure Swapped where
  result : Except SwapError Unit
  disk : Disk
  moves : Moves

/-- `remove_dir_all` where its failure is ignored. -/
def discard (fault : Fault) (tree : Option DirectoryTree) :
    Option DirectoryTree :=
  tree.bind fun tree => removeDirAll tree fault

def rollBack (faults : Faults) (disk : Disk) (moves : Moves) : Swapped :=
  if disk.old.isSome then
    let moved := moveDir faults.restore disk.old disk.live
    ⟨.error .activating, { disk with old := moved.src, live := moved.dst },
      { moves with restore := some moved.result }⟩
  else ⟨.error .activating, disk, moves⟩

def activate (faults : Faults) (disk : Disk) (moves : Moves) : Swapped :=
  let moved := moveDir faults.activate disk.root disk.live
  let disk := { disk with root := moved.src, live := moved.dst }
  let moves := { moves with activate := some moved.result }
  if moved.result.isOk then
    ⟨.ok (), { disk with old := discard faults.drop disk.old }, moves⟩
  else rollBack faults disk moves

def swapIntoPlace (faults : Faults) (disk : Disk) : Swapped :=
  let disk := { disk with old := discard faults.clear disk.old }
  let moves : Moves := { stale := disk.old.isSome }
  if disk.live.isSome then
    let moved := moveDir faults.archive disk.live disk.old
    let disk := { disk with live := moved.src, old := moved.dst }
    let moves := { moves with archive := some moved.result }
    if moved.result.isOk then activate faults disk moves
    else ⟨.error .archiving, disk, moves⟩
  else activate faults disk moves

/-! ## All or nothing -/

/-- The old lists are live after an error, the staged ones after a success. -/
def AllOrNothing (faults : Faults) (disk : Disk) : Prop :=
  match (swapIntoPlace faults disk).result with
  | .ok _ => (swapIntoPlace faults disk).disk.live = disk.root
  | .error _ => (swapIntoPlace faults disk).disk.live = disk.live

instance (faults : Faults) (disk : Disk) :
    Decidable (AllOrNothing faults disk) := by
  unfold AllOrNothing
  split <;> infer_instance

/-- The old lists were moved aside as they are. -/
def Moves.exact (moves : Moves) : Bool :=
  moves.archive = some .renamed ||
    (moves.archive = some .copied && !moves.stale)

/-- The ways of a swap that leave no mark of a failure. -/
def Moves.safe (moves : Moves) : Bool :=
  match moves.archive with
  | some .refused | some (.copyFailed _) | some (.removeFailed true) => true
  | some (.removeFailed false) => false
  | none | some .renamed | some .copied =>
      match moves.activate with
      | none | some .renamed | some .copied => true
      | some .refused | some (.copyFailed true) =>
          -- Nothing is in the way of the old lists.
          match moves.restore with
          | none => true
          | some .renamed | some .copied | some (.removeFailed _) => moves.exact
          | some .refused | some (.copyFailed true) => moves.archive = none
          | some (.copyFailed false) => false
      | some (.copyFailed false) | some (.removeFailed _) =>
          moves.restore = some .renamed && moves.exact

/-- The names in a directory differ, and there are lists to put in place. -/
structure Disk.Sound (disk : Disk) : Prop where
  live : ∀ tree, disk.live = some tree → tree.Proper
  root : ∃ tree, disk.root = some tree ∧ tree.Proper

/-! ### What a move does -/

/-- What is where after a move, by what came of it. -/
def Moved.Meets (moved : Moved) (tree : DirectoryTree)
    (dst : Option DirectoryTree) : Prop :=
  match moved.result with
  | .renamed => moved.src = none ∧ moved.dst = some tree ∧
      (dst = none ∨ dst = some .nil)
  | .copied => moved.src = none ∧ moved.dst.isSome = true ∧
      (tree.Proper → dst = none → moved.dst = some tree)
  | .refused => moved.src = some tree ∧ moved.dst = dst
  | .copyFailed unchanged => moved.src = some tree ∧
      (unchanged = true → moved.dst = dst)
  | .removeFailed unchanged =>
      (unchanged = true → moved.src = some tree) ∧
      (tree.Proper → dst = none → moved.dst = some tree) ∧
      (unchanged = false → tree ≠ .nil)

theorem copyDir_isSome {tree : DirectoryTree} {dst copy : Option DirectoryTree}
    {fault : Fault} (copied : copyDir tree dst fault = (copy, true)) :
    copy.isSome = true := by
  unfold copyDir at copied
  split at copied
  · cases copied
  · rw [← (Prod.mk.inj copied).1]
    rfl

theorem removeDirAll_nil {fault : Fault} {left : DirectoryTree}
    (fails : removeDirAll .nil fault = some left) : left = .nil := by
  unfold removeDirAll DirectoryTree.removeEntries at fails
  dsimp only at fails
  split at fails
  · cases fails
  · cases fails
    rfl

theorem moveDir_meets (fault : MoveFault) (tree : DirectoryTree)
    (dst : Option DirectoryTree) :
    (moveDir fault (some tree) dst).Meets tree dst := by
  cases how : fault.rename with
  | fails =>
      simp only [moveDir, how]
      exact ⟨rfl, rfl⟩
  | works =>
      simp only [moveDir, how]
      split
      · exact ⟨rfl, rfl, .inl rfl⟩
      · exact ⟨rfl, rfl, .inr rfl⟩
      · exact ⟨rfl, rfl⟩
  | crossDevice =>
      simp only [moveDir, how]
      split
      · rename_i copy copied
        exact ⟨rfl, of_decide_eq_true⟩
      · rename_i copy copied
        have same : tree.Proper → dst = none → copy = some tree := by
          rintro proper rfl
          exact copyDir_absent proper copied
        split
        · exact ⟨rfl, copyDir_isSome copied, same⟩
        · rename_i left removed
          refine ⟨?_, same, ?_⟩
          · intro unchanged
            exact congrArg some (of_decide_eq_true unchanged)
          · rintro changed rfl
            exact of_decide_eq_false changed (removeDirAll_nil removed)

/-! ### A swap for each way to fail -/

def MoveResult.fault : MoveResult → MoveFault
  | .renamed => {}
  | .copied => { rename := .crossDevice }
  | .refused => { rename := .fails }
  | .copyFailed true =>
      { rename := .crossDevice, copy := { after := some 0 } }
  | .copyFailed false =>
      { rename := .crossDevice
        copy := { after := some 1, half := some "half" } }
  | .removeFailed true =>
      { rename := .crossDevice, remove := { after := some 0 } }
  | .removeFailed false =>
      { rename := .crossDevice, remove := { after := some 1 } }

def Moves.faults (moves : Moves) : Faults where
  clear := { after := some 0 }
  archive := (moves.archive.map MoveResult.fault).getD {}
  activate :=
    if moves.activate = some (.copyFailed false) ∧
        moves.restore = some .renamed then
      -- Only the empty directory is made, which a rename may replace.
      { rename := .crossDevice, copy := { after := some 1 } }
    else (moves.activate.map MoveResult.fault).getD {}
  restore := (moves.restore.map MoveResult.fault).getD {}

def Moves.disk (moves : Moves) : Disk where
  live :=
    if moves.archive = none then none
    else some (.file "live" "domains" .nil)
  old :=
    if !moves.stale then none
    else if moves.archive = some .renamed then some .nil
    else some (.file "old" "domains" .nil)
  root :=
    if moves.activate = some (.removeFailed true) ∧
        moves.restore = some .renamed then some .nil
    else some (.file "new" "domains" .nil)

/-- What the moves of a swap have in common. -/
def Moves.possible (moves : Moves) : Bool :=
  match moves.archive.all (·.isOk), moves.activate with
  | false, activate => activate = none && moves.restore = none
  | true, none => false
  | true, some result =>
      if result.isOk then moves.restore = none
      else
        moves.restore.isSome = (moves.archive.isSome || moves.stale) &&
          !(result = .removeFailed false && moves.restore = some .renamed)

/-- The moves that came before the staged lists are put in place. -/
structure Moves.Archived (moves : Moves) (disk : Disk)
    (live : Option DirectoryTree) : Prop where
  made : moves.activate = none ∧ moves.restore = none
  ok : moves.archive.all (·.isOk) = true
  absent : disk.live = none
  kept : disk.old.isSome = (moves.archive.isSome || moves.stale)
  unarchived : moves.archive = none → live = none
  exact : moves.exact = true → disk.old = live

/-- Either nothing was there to move aside, or it is aside now. -/
theorem archived_moveDir {faults : Faults} {tree : DirectoryTree}
    {disk : Disk} (live : disk.live = some tree) (proper : tree.Proper)
    (ok : (moveDir faults.archive disk.live disk.old).result.isOk = true) :
    Moves.Archived
      { stale := disk.old.isSome
        archive := some (moveDir faults.archive disk.live disk.old).result }
      { disk with
        live := (moveDir faults.archive disk.live disk.old).src
        old := (moveDir faults.archive disk.live disk.old).dst }
      disk.live := by
  rw [live] at ok ⊢
  have meets := moveDir_meets faults.archive tree disk.old
  generalize moveDir faults.archive (some tree) disk.old = moved at ok meets ⊢
  unfold Moved.Meets at meets
  obtain ⟨result, src, dst⟩ := moved
  cases result with
  | renamed =>
      obtain ⟨rfl, rfl, -⟩ := meets
      exact ⟨⟨rfl, rfl⟩, rfl, rfl, rfl,
        fun absent => absurd absent (Option.some_ne_none _), fun _ => rfl⟩
  | copied =>
      obtain ⟨rfl, some', same⟩ := meets
      refine ⟨⟨rfl, rfl⟩, rfl, rfl, some',
        fun absent => absurd absent (Option.some_ne_none _), ?_⟩
      intro exact
      apply same proper
      cases old : disk.old with
      | none => rfl
      | some old =>
          rw [old] at exact
          cases exact
  | refused => cases ok
  | copyFailed unchanged => cases ok
  | removeFailed unchanged => cases ok

theorem possible_activate {faults : Faults} {disk : Disk} {moves : Moves}
    {live : Option DirectoryTree} (archived : moves.Archived disk live)
    {root : DirectoryTree} (staged : disk.root = some root)
    (proper : root.Proper) :
    (activate faults disk moves).moves.possible = true := by
  obtain ⟨⟨-, none'⟩, ok, absent, kept, -, -⟩ := archived
  have meets := moveDir_meets faults.activate root disk.live
  unfold activate
  rw [staged]
  generalize moveDir faults.activate (some root) disk.live = moved at meets ⊢
  obtain ⟨result, src, dst⟩ := moved
  dsimp only
  split
  · rename_i success
    simp only [Moves.possible, ok, success, none', if_true, decide_true]
  · rename_i failure
    unfold rollBack
    dsimp only
    split
    · rename_i there
      obtain ⟨old, aside⟩ := Option.isSome_iff_exists.mp there
      rw [there] at kept
      have back := moveDir_meets faults.restore old dst
      rw [aside]
      generalize moveDir faults.restore (some old) dst = restored at back ⊢
      obtain ⟨result', src', dst'⟩ := restored
      have apart : ¬ (result = .removeFailed false ∧ result' = .renamed) := by
        rintro ⟨rfl, rfl⟩
        have placed := meets.2.1 proper absent
        dsimp only at placed
        rcases back.2.2 with gone | empty
        · rw [placed] at gone
          cases gone
        · rw [placed] at empty
          exact meets.2.2 rfl (Option.some.inj empty)
      simp only [Moves.possible, ok, failure, Bool.false_eq_true, if_false,
        Option.isSome_some, ← kept, decide_true, Bool.true_and,
        Bool.not_eq_true', Bool.and_eq_false_iff, decide_eq_false_iff_not,
        Option.some.injEq]
      exact not_and_or.mp apart
    · rename_i missing
      rw [Bool.not_eq_true] at missing
      rw [missing] at kept
      simp only [Moves.possible, ok, failure, Bool.false_eq_true, if_false,
        none', Option.isSome_none, ← kept, decide_true, Bool.true_and]
      simp

/-- What is live in the end. -/
def Swapped.Kept (swapped : Swapped) (live root : Option DirectoryTree) :
    Prop :=
  match swapped.result with
  | .ok _ => swapped.disk.live = root
  | .error _ => swapped.disk.live = live

/-- A roll back onto nothing, or onto an empty directory, by which the old
lists are live again. -/
theorem kept_restored {faults : Faults} {old : DirectoryTree}
    {dst live : Option DirectoryTree}
    (proper : ∀ tree, live = some tree → tree.Proper) (same : some old = live)
    (works : (moveDir faults.restore (some old) dst).result = .renamed ∨
      dst = none ∧
        ((moveDir faults.restore (some old) dst).result = .copied ∨
          ∃ unchanged, (moveDir faults.restore (some old) dst).result =
            .removeFailed unchanged)) :
    (moveDir faults.restore (some old) dst).dst = live := by
  have meets := moveDir_meets faults.restore old dst
  have own := proper old same.symm
  unfold Moved.Meets at meets
  rcases works with renamed | ⟨gone, copied | ⟨unchanged, removing⟩⟩
  · rw [renamed] at meets
    exact meets.2.1.trans same
  · rw [copied] at meets
    exact (meets.2.2 own gone).trans same
  · rw [removing] at meets
    exact (meets.2.1 own gone).trans same

/-- The conditions where the old lists, if any, were moved aside. -/
theorem Moves.safe_of_archived {moves : Moves}
    (ok : moves.archive.all (·.isOk) = true) :
    moves.safe =
      match moves.activate with
      | none | some .renamed | some .copied => true
      | some .refused | some (.copyFailed true) =>
          match moves.restore with
          | none => true
          | some .renamed | some .copied | some (.removeFailed _) => moves.exact
          | some .refused | some (.copyFailed true) => moves.archive = none
          | some (.copyFailed false) => false
      | some (.copyFailed false) | some (.removeFailed _) =>
          moves.restore = some .renamed && moves.exact := by
  unfold Moves.safe
  cases archive : moves.archive with
  | none => rfl
  | some result =>
      rw [archive, Option.all_some] at ok
      cases result with
      | renamed => rfl
      | copied => rfl
      | refused => cases ok
      | copyFailed unchanged => cases ok
      | removeFailed unchanged => cases ok

/-- The same where nothing is in the way of the old lists. -/
theorem Moves.safe_of_clear {moves : Moves}
    (ok : moves.archive.all (·.isOk) = true)
    (clear : moves.activate = some .refused ∨
      moves.activate = some (.copyFailed true)) :
    moves.safe =
      match moves.restore with
      | none => true
      | some .renamed | some .copied | some (.removeFailed _) => moves.exact
      | some .refused | some (.copyFailed true) => moves.archive = none
      | some (.copyFailed false) => false := by
  rw [Moves.safe_of_archived ok]
  rcases clear with clear | clear
  · rw [clear]
  · rw [clear]

/-- And where the staged ones are, if only in part. -/
theorem Moves.safe_of_occupied {moves : Moves}
    (ok : moves.archive.all (·.isOk) = true)
    (occupied : moves.activate = some (.copyFailed false) ∨
      ∃ unchanged, moves.activate = some (.removeFailed unchanged)) :
    moves.safe = (moves.restore = some .renamed && moves.exact) := by
  rw [Moves.safe_of_archived ok]
  rcases occupied with occupied | ⟨unchanged, occupied⟩
  · rw [occupied]
  · rw [occupied]

section RollBack

variable {faults : Faults} {disk : Disk} {moves : Moves}
  {live root : Option DirectoryTree}

theorem kept_rollBack_clear (ok : moves.archive.all (·.isOk) = true)
    (kept : disk.old.isSome = (moves.archive.isSome || moves.stale))
    (unarchived : moves.archive = none → live = none)
    (exact : moves.exact = true → disk.old = live)
    (proper : ∀ tree, live = some tree → tree.Proper) (gone : disk.live = none)
    (clear : moves.activate = some .refused ∨
      moves.activate = some (.copyFailed true))
    (safe : (rollBack faults disk moves).moves.safe = true) :
    (rollBack faults disk moves).Kept live root := by
  unfold rollBack at safe ⊢
  split at safe
  · rename_i there
    rw [if_pos there]
    obtain ⟨old, aside⟩ := Option.isSome_iff_exists.mp there
    rw [aside, gone] at safe ⊢
    have meets := moveDir_meets faults.restore old none
    have condition := @Moves.safe_of_clear
      { moves with
        restore := some (moveDir faults.restore (some old) none).result }
      ok clear
    have restores : moves.exact = true →
        (moveDir faults.restore (some old) none).result = .renamed ∨
          none = none ∧
            ((moveDir faults.restore (some old) none).result = .copied ∨
              ∃ unchanged, (moveDir faults.restore (some old) none).result =
                .removeFailed unchanged) →
        (moveDir faults.restore (some old) none).dst = live :=
      fun own => kept_restored proper (aside.symm.trans (exact own))
    show (moveDir faults.restore (some old) none).dst = live
    dsimp only at safe
    unfold Moved.Meets at meets
    rw [condition] at safe
    cases came : (moveDir faults.restore (some old) none).result with
    | renamed =>
        rw [came] at safe
        exact restores safe (.inl came)
    | copied =>
        rw [came] at safe
        exact restores safe (.inr ⟨rfl, .inl came⟩)
    | removeFailed unchanged =>
        rw [came] at safe
        exact restores safe (.inr ⟨rfl, .inr ⟨_, came⟩⟩)
    | refused =>
        rw [came] at safe meets
        exact meets.2.trans (unarchived (of_decide_eq_true safe)).symm
    | copyFailed unchanged =>
        rw [came] at safe meets
        cases unchanged with
        | true =>
            exact (meets.2 rfl).trans (unarchived (of_decide_eq_true safe)).symm
        | false => cases safe
  · rename_i missing
    rw [if_neg missing]
    have none' : moves.archive = none := by
      rw [Bool.not_eq_true] at missing
      rw [missing] at kept
      cases archive : moves.archive with
      | none => rfl
      | some result =>
          rw [archive] at kept
          cases kept
    exact gone.trans (unarchived none').symm

theorem kept_rollBack_occupied (ok : moves.archive.all (·.isOk) = true)
    (exact : moves.exact = true → disk.old = live)
    (proper : ∀ tree, live = some tree → tree.Proper)
    (none' : moves.restore = none)
    (occupied : moves.activate = some (.copyFailed false) ∨
      ∃ unchanged, moves.activate = some (.removeFailed unchanged))
    (safe : (rollBack faults disk moves).moves.safe = true) :
    (rollBack faults disk moves).Kept live root := by
  unfold rollBack at safe ⊢
  split at safe
  · rename_i there
    rw [if_pos there]
    obtain ⟨old, aside⟩ := Option.isSome_iff_exists.mp there
    rw [aside] at safe ⊢
    have condition := @Moves.safe_of_occupied
      { moves with
        restore := some (moveDir faults.restore (some old) disk.live).result }
      ok occupied
    dsimp only at safe
    rw [condition, Bool.and_eq_true, decide_eq_true_eq] at safe
    obtain ⟨renamed, own⟩ := safe
    exact kept_restored proper (aside.symm.trans (exact own))
      (.inl (Option.some.inj renamed))
  · rw [Moves.safe_of_occupied ok occupied, none'] at safe
    cases safe

end RollBack

theorem kept_activate {faults : Faults} {disk : Disk} {moves : Moves}
    {live : Option DirectoryTree} (archived : moves.Archived disk live)
    (live_proper : ∀ tree, live = some tree → tree.Proper)
    {root : DirectoryTree} (staged : disk.root = some root)
    (proper : root.Proper)
    (safe : (activate faults disk moves).moves.safe = true) :
    (activate faults disk moves).Kept live disk.root := by
  obtain ⟨⟨-, none'⟩, ok, absent, kept, unarchived, exact⟩ := archived
  have meets := moveDir_meets faults.activate root disk.live
  unfold activate at safe ⊢
  rw [staged] at safe ⊢
  generalize moveDir faults.activate (some root) disk.live = moved
    at meets safe ⊢
  obtain ⟨result, src, dst⟩ := moved
  cases result with
  | renamed => exact meets.2.1
  | copied => exact meets.2.2 proper absent
  | refused =>
      exact kept_rollBack_clear ok kept unarchived exact live_proper
        (meets.2.trans absent) (.inl rfl) safe
  | copyFailed unchanged =>
      cases unchanged with
      | true =>
          exact kept_rollBack_clear ok kept unarchived exact live_proper
            ((meets.2 rfl).trans absent) (.inr rfl) safe
      | false =>
          exact kept_rollBack_occupied ok exact live_proper none' (.inl rfl) safe
  | removeFailed unchanged =>
      exact kept_rollBack_occupied ok exact live_proper none'
        (.inr ⟨unchanged, rfl⟩) safe

theorem possible_moves {faults : Faults} {disk : Disk} (sound : disk.Sound) :
    (swapIntoPlace faults disk).moves.possible = true := by
  obtain ⟨live_proper, root, staged, proper⟩ := sound
  unfold swapIntoPlace
  dsimp only
  generalize discard faults.clear disk.old = old
  split
  · rename_i there
    obtain ⟨tree, live⟩ := Option.isSome_iff_exists.mp there
    split
    · rename_i success
      exact possible_activate
        (@archived_moveDir faults tree { disk with old := old } live
          (live_proper tree live) success) staged proper
    · rename_i failure
      rw [Bool.not_eq_true] at failure
      simp only [Moves.possible, Option.all_some, failure, decide_true,
        Bool.and_self]
  · rename_i missing
    rw [Option.not_isSome_iff_eq_none] at missing
    exact possible_activate
      { made := ⟨rfl, rfl⟩, ok := rfl, absent := missing, kept := rfl,
        unarchived := fun _ => missing, exact := fun exact => by cases exact }
      staged proper

theorem unsafe_moves : ∀ moves : Moves,
    moves.possible = true → moves.safe = false →
      (swapIntoPlace moves.faults moves.disk).moves = moves ∧
        ¬ AllOrNothing moves.faults moves.disk := by
  decide +kernel

theorem kept_swap {faults : Faults} {disk : Disk} (sound : disk.Sound)
    (safe : (swapIntoPlace faults disk).moves.safe = true) :
    AllOrNothing faults disk := by
  obtain ⟨live_proper, root, staged, proper⟩ := sound
  show (swapIntoPlace faults disk).Kept disk.live disk.root
  unfold swapIntoPlace at safe ⊢
  dsimp only at safe ⊢
  generalize discard faults.clear disk.old = old at safe ⊢
  split at safe
  · rename_i there
    rw [if_pos there]
    obtain ⟨tree, live⟩ := Option.isSome_iff_exists.mp there
    split at safe
    · rename_i success
      rw [if_pos success]
      exact kept_activate
        (@archived_moveDir faults tree { disk with old := old } live
          (live_proper tree live) success) live_proper staged proper safe
    · rename_i failure
      rw [if_neg failure]
      have meets := moveDir_meets faults.archive tree old
      rw [live] at safe failure ⊢
      show (moveDir faults.archive (some tree) old).src = some tree
      generalize moveDir faults.archive (some tree) old = moved
        at meets safe failure ⊢
      obtain ⟨result, src, dst⟩ := moved
      cases result with
      | renamed => exact absurd rfl failure
      | copied => exact absurd rfl failure
      | refused => exact meets.1
      | copyFailed unchanged => exact meets.1
      | removeFailed unchanged =>
          cases unchanged with
          | true => exact meets.1 rfl
          | false => cases safe
  · rename_i missing
    rw [if_neg missing]
    rw [Option.not_isSome_iff_eq_none] at missing
    exact kept_activate
      { made := ⟨rfl, rfl⟩, ok := rfl, absent := missing, kept := rfl,
        unarchived := fun _ => missing, exact := fun exact => by cases exact }
      live_proper staged proper safe

theorem Moves.sound_disk (moves : Moves) : moves.disk.Sound := by
  constructor
  · intro tree live
    simp only [Moves.disk] at live
    split at live
    · cases live
    · cases live
      exact ⟨List.not_mem_nil, trivial⟩
  · simp only [Moves.disk]
    split
    · exact ⟨_, rfl, trivial⟩
    · exact ⟨_, rfl, List.not_mem_nil, trivial⟩

/-- Two live lists and a staged one. -/
def twoLists : Disk where
  live := some (.dir "adult" (.file "domains" "one" .nil)
    (.dir "games" (.file "domains" "two" .nil) .nil))
  old := none
  root := some (.dir "adult" (.file "domains" "three" .nil) .nil)

theorem sound_twoLists : twoLists.Sound :=
  ⟨fun _ live => Option.some.inj live ▸ by decide, _, rfl, by decide⟩

end QuartzFire.ContentFiltering
