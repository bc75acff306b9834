import QuartzFire.Foundation.Blanks
import QuartzFire.Foundation.Fallible
import QuartzFire.Foundation.Pairing
import QuartzFire.Foundation.TextLines

/-!
# The check of an uploaded configuration

A restore and a rollback look over the text line by line before it is loaded: it
must not be empty, hold masked secrets or be a list of commands, and its braces
must pair up.
-/

namespace QuartzFire.Guard

open Pairing TextLines

/-! ## The check -/

def maxRestoreBytes : Nat := 4 * 1024 * 1024

def secretMask : List Char := List.replicate 16 '*'

/-- The braces after each character, unless one closes what is not open. -/
def countBraces (braces : Int) : List Char → Option Int
  | [] => some braces
  | char :: rest =>
      let counted := match char with
        | '{' => braces + 1
        | '}' => braces - 1
        | _ => braces
      if counted < 0 then none else countBraces counted rest

structure Seen where
  braces : Int
  significant : Bool
  deriving DecidableEq

/-- Neither empty nor a comment. -/
def isSignificant (line : List Char) : Bool :=
  line ≠ [] && !"//".toList.isPrefixOf line

def isCommand (line : List Char) : Bool :=
  "set ".toList.isPrefixOf line || "delete ".toList.isPrefixOf line

def validateLine (seen : Seen) (line : List Char) :
    Except String Seen :=
  let t := trim line
  if isSignificant t = false then .ok seen
  else if containsText secretMask t = true then .error
    ("this file has masked-out secrets (\"****************\") and cannot be " ++
      "restored — download a fresh backup, which includes real values")
  else if isCommand t = true then .error
    ("this looks like a list of `set` commands — restore expects a " ++
      "config.boot-style file (the format the backup download produces)")
  else
    match countBraces seen.braces t with
    | none => .error "unbalanced braces — not a valid configuration file"
    | some braces => .ok ⟨braces, true⟩

def validateConfigText (content : String) : Except String Unit :=
  if maxRestoreBytes < content.utf8ByteSize then
    .error "file is too large to be a configuration"
  else do
    let seen ← (lines content.toList).foldlM validateLine ⟨0, false⟩
    if seen.significant = false then .error "the file is empty"
    else if seen.braces ≠ 0 then
      .error "unbalanced braces — the file looks truncated"
    else .ok ()

/-! ## What it accepts -/

def braceMark (char : Char) : Option Int :=
  if char = '{' then some 1 else if char = '}' then some (-1) else none

def braceMarks (text : List Char) : List Int :=
  text.filterMap braceMark

/-- The lines the check looks at. -/
def significantLines (content : String) : List (List Char) :=
  ((lines content.toList).map trim).filter isSignificant

def Acceptable (line : List Char) : Prop :=
  containsText secretMask line = false ∧ isCommand line = false

theorem countBraces_eq_walk {braces : Int} (start : 0 ≤ braces)
    (text : List Char) :
    countBraces braces text = walk braces (braceMarks text) := by
  induction text generalizing braces with
  | nil => rfl
  | cons char rest ih =>
      unfold countBraces braceMarks
      dsimp only
      split
      · have opens : braceMark '{' = some 1 := rfl
        rw [List.filterMap_cons_some opens, walk]
        split
        · rfl
        · exact ih (by omega)
      · have closes : braceMark '}' = some (-1) := rfl
        rw [List.filterMap_cons_some closes, walk, ← Int.sub_eq_add_neg]
        split
        · rfl
        · exact ih (by omega)
      · rename_i opens closes
        have other : braceMark char = none := by
          unfold braceMark
          rw [if_neg opens, if_neg closes]
        rw [if_neg (by omega), List.filterMap_cons_none other]
        exact ih start

theorem validateLine_of_insignificant (seen : Seen) {line : List Char}
    (plain : isSignificant (trim line) = false) :
    validateLine seen line = .ok seen := by
  unfold validateLine
  exact if_pos plain

theorem validateLine_eq_ok {seen next : Seen} {line : List Char}
    (start : 0 ≤ seen.braces) (counts : isSignificant (trim line) = true) :
    validateLine seen line = .ok next ↔
      Acceptable (trim line) ∧
        walk seen.braces (braceMarks (trim line)) = some next.braces ∧
        next.significant = true := by
  unfold validateLine
  dsimp only
  rw [if_neg (by simp [counts]), refuse_eq_ok, refuse_eq_ok,
    countBraces_eq_walk start, Bool.not_eq_true, Bool.not_eq_true,
    ← and_assoc]
  apply and_congr_right
  intro _
  cases walk seen.braces (braceMarks (trim line)) with
  | none => simp
  | some braces =>
      cases next
      simp [eq_comm]

/-- What a run over the lines amounts to. -/
theorem foldlM_validateLine {items : List (List Char)} {seen final : Seen}
    (start : 0 ≤ seen.braces) :
    items.foldlM validateLine seen = .ok final ↔
      (∀ line ∈ (items.map trim).filter isSignificant, Acceptable line) ∧
        walk seen.braces
          (((items.map trim).filter isSignificant).flatMap braceMarks) =
            some final.braces ∧
        final.significant = (seen.significant ||
          decide ((items.map trim).filter isSignificant ≠ [])) := by
  induction items generalizing seen with
  | nil =>
      cases seen
      cases final
      simp [pure, Except.pure, walk, eq_comm]
  | cons line rest ih =>
      rw [List.foldlM_cons, bind_eq_ok, List.map_cons, List.filter_cons]
      cases counts : isSignificant (trim line) with
      | false =>
          rw [if_neg Bool.false_ne_true, ← ih start]
          rw [validateLine_of_insignificant seen counts]
          simp
      | true =>
          rw [if_pos rfl, List.forall_mem_cons, List.flatMap_cons, walk_append]
          constructor
          · rintro ⟨next, step, run⟩
            obtain ⟨fine, walked, marked⟩ :=
              (validateLine_eq_ok start counts).mp step
            obtain ⟨others, reached, flag⟩ :=
              (ih (walk_nonneg start walked)).mp run
            refine ⟨⟨fine, others⟩, ?_, ?_⟩
            · rw [walked]
              exact reached
            · rw [flag, marked]
              simp
          · rintro ⟨⟨fine, others⟩, reached, flag⟩
            obtain ⟨braces, walked, reached⟩ :=
              Option.bind_eq_some_iff.mp reached
            refine ⟨⟨braces, true⟩,
              (validateLine_eq_ok start counts).mpr ⟨fine, walked, rfl⟩,
              (ih (walk_nonneg start walked)).mpr ⟨others, reached, ?_⟩⟩
            rw [flag]
            simp

theorem validateConfigText_eq_ok {content : String} :
    validateConfigText content = .ok () ↔
      content.utf8ByteSize ≤ maxRestoreBytes ∧
        significantLines content ≠ [] ∧
        (∀ line ∈ significantLines content, Acceptable line) ∧
        Paired ((significantLines content).flatMap braceMarks) := by
  unfold validateConfigText
  rw [refuse_eq_ok, Nat.not_lt, paired_iff_walk]
  apply and_congr_right
  intro _
  constructor
  · intro ok
    obtain ⟨seen, run, ends⟩ := bind_eq_ok.mp ok
    obtain ⟨flagged, ends⟩ := refuse_eq_ok.mp ends
    obtain ⟨level, -⟩ := refuse_eq_ok.mp ends
    rw [ne_eq, not_not] at level
    obtain ⟨fine, walked, flag⟩ := (foldlM_validateLine (Int.le_refl 0)).mp run
    rw [level] at walked
    refine ⟨?_, fine, walked⟩
    rw [Bool.not_eq_false] at flagged
    rw [flagged, Bool.false_or] at flag
    exact of_decide_eq_true flag.symm
  · rintro ⟨some', fine, walked⟩
    have run : (lines content.toList).foldlM validateLine ⟨0, false⟩ =
        .ok ⟨0, true⟩ := by
      refine (foldlM_validateLine (Int.le_refl 0)).mpr ⟨fine, walked, ?_⟩
      rw [Bool.false_or]
      exact (decide_eq_true some').symm
    refine bind_eq_ok.mpr ⟨_, run, ?_⟩
    rfl

example : validateConfigText
    "interfaces \x7b\n ethernet eth0 \x7b\n \x7d\n\x7d\n" = .ok () := by
  decide +kernel

end QuartzFire.Guard
