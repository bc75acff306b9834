import QuartzFire.Foundation.Blanks
import QuartzFire.Foundation.Text

/-!
# The lines of a text

Reading a text by lines and writing lines as a text.  A carriage return before
a line's end belongs to the end, but not where the text stops without one.
-/

namespace QuartzFire.TextLines

/-- Without a carriage return at its end. -/
def chomp (line : List Char) : List Char :=
  if line.getLast? = some '\r' then line.dropLast else line

/-- `lines` -/
def lines (text : List Char) : List (List Char) :=
  let pieces := text.splitOn '\n'
  pieces.dropLast.map chomp ++
    pieces.getLast?.toList.filter fun last => decide (last ≠ [])

/-- `join("\n")` and a line end after the last one. -/
def unlines (lines : List (List Char)) : List Char :=
  ['\n'].intercalate lines ++ ['\n']

theorem chomp_eq_self {line : List Char} :
    chomp line = line ↔ line.getLast? ≠ some '\r' := by
  unfold chomp
  split
  · rename_i ends
    refine iff_of_false (fun same => ?_) (not_not_intro ends)
    have nonempty : line ≠ [] := by
      rintro rfl
      cases ends
    have shorter := congrArg List.length same
    have positive := List.length_pos_iff.mpr nonempty
    rw [List.length_dropLast] at shorter
    omega
  · rename_i other
    exact iff_of_true rfl other

theorem map_chomp_eq_self {items : List (List Char)}
    (plain : ∀ line ∈ items, chomp line = line) : items.map chomp = items := by
  induction items with
  | nil => rfl
  | cons line rest ih =>
      rw [List.forall_mem_cons] at plain
      rw [List.map_cons, plain.1, ih plain.2]

/-- Chomping drops a blank at the end or nothing. -/
theorem chomp_cases (line : List Char) :
    chomp line = line ∨ line = chomp line ++ ['\r'] := by
  unfold chomp
  split
  · rename_i ends
    exact .inr (List.dropLast_append_getLast? '\r' ends).symm
  · exact .inl rfl

theorem trim_chomp (line : List Char) : trim (chomp line) = trim line := by
  rcases chomp_cases line with same | longer
  · rw [same]
  · have blank : trim (chomp line ++ ['\r']) = trim (chomp line) :=
      trimBy_concat (by decide)
    rw [← blank, ← longer]

theorem not_mem_chomp {char : Char} {line : List Char} (absent : char ∉ line) :
    char ∉ chomp line := by
  rcases chomp_cases line with same | longer
  · rw [same]
    exact absent
  · intro inside
    rw [longer] at absent
    exact absent (List.mem_append_left _ inside)

theorem newline_not_mem {text line : List Char} (member : line ∈ lines text) :
    '\n' ∉ line := by
  rcases List.mem_append.mp member with ended | last
  · obtain ⟨piece, inside, rfl⟩ := List.mem_map.mp ended
    exact not_mem_chomp (not_mem_of_mem_splitOn
      ((List.dropLast_sublist _).mem inside))
  · have inside := Option.mem_toList.mp (List.mem_filter.mp last).1
    exact not_mem_of_mem_splitOn (List.mem_of_getLast? inside)

theorem unlines_eq {items : List (List Char)} (nonempty : items ≠ []) :
    unlines items = ['\n'].intercalate (items ++ [[]]) := by
  induction items with
  | nil => exact absurd rfl nonempty
  | cons line rest ih =>
      rw [List.cons_append,
        List.intercalate_cons_of_ne_nil (List.append_ne_nil_of_right_ne_nil
          rest (List.cons_ne_nil [] []))]
      by_cases last : rest = []
      · subst last
        simp [unlines]
      · rw [← ih last, unlines, unlines, List.intercalate_cons_of_ne_nil last,
          List.append_assoc]

theorem splitOn_unlines {items : List (List Char)} (nonempty : items ≠ [])
    (plain : ∀ line ∈ items, '\n' ∉ line) :
    (unlines items).splitOn '\n' = items ++ [[]] := by
  rw [unlines_eq nonempty]
  apply List.splitOn_intercalate
  · intro line member
    rcases List.mem_append.mp member with inside | last
    · exact plain line inside
    · rw [List.mem_singleton.mp last]
      exact List.not_mem_nil
  · simp

/-- What was written by lines is read as the same lines, chomped. -/
theorem lines_unlines {items : List (List Char)} (nonempty : items ≠ [])
    (plain : ∀ line ∈ items, '\n' ∉ line) :
    lines (unlines items) = items.map chomp := by
  rw [lines, splitOn_unlines nonempty plain]
  simp

theorem unlines_injective {left right : List (List Char)} (leftSome : left ≠ [])
    (rightSome : right ≠ []) (leftPlain : ∀ line ∈ left, '\n' ∉ line)
    (rightPlain : ∀ line ∈ right, '\n' ∉ line)
    (same : unlines left = unlines right) : left = right := by
  have pieces := congrArg (List.splitOn '\n') same
  rw [splitOn_unlines leftSome leftPlain,
    splitOn_unlines rightSome rightPlain] at pieces
  exact List.append_cancel_right pieces

end QuartzFire.TextLines
