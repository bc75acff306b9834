import QuartzFire.Foundation.Lines
import QuartzFire.Foundation.Text

/-!
# Reading and writing texts line by line

Files in text mode, and the first place of a text where a pattern matches.
-/

namespace QuartzFire

/-- What Unicode says of a character. -/
structure CharClasses where
  isWord : Char → Bool
  decimal : Char → Option Nat

/-- `\s` -/
def isSpace (char : Char) : Bool :=
  isWhitespace char || (0x1c ≤ char.val && char.val ≤ 0x1f)

/-! ## Lines -/

/-- Reading in text mode makes one newline of every line end. -/
def universalNewlines : List Char → List Char
  | [] => []
  | '\r' :: '\n' :: rest => '\n' :: universalNewlines rest
  | '\r' :: rest => '\n' :: universalNewlines rest
  | char :: rest => char :: universalNewlines rest

/-- The lines of a text without their newlines. -/
def textLines (text : List Char) : List (List Char) :=
  let parts := splitLines '\n' text
  parts.1.map List.dropLast ++ if parts.2 = [] then [] else [parts.2]

/-- `"\n".join(lines) + "\n"` -/
def joinLines (lines : List (List Char)) : List Char :=
  ['\n'].intercalate lines ++ ['\n']

theorem joinLines_singleton (line : List Char) :
    joinLines [line] = line ++ ['\n'] := by
  simp [joinLines, List.intercalate]

theorem joinLines_cons (line next : List Char) (lines : List (List Char)) :
    joinLines (line :: next :: lines) =
      line ++ '\n' :: joinLines (next :: lines) := by
  simp [joinLines, List.intercalate, List.intersperse]

/-- A text before a newline is told from what follows. -/
theorem eq_of_append_newline {left right front back : List Char}
    (insideLeft : '\n' ∉ left) (insideRight : '\n' ∉ right)
    (same : left ++ '\n' :: front = right ++ '\n' :: back) :
    left = right ∧ front = back := by
  have first := takeLine_append_singleton insideLeft front
  rw [same, takeLine_append_singleton insideRight back] at first
  simp only [Option.some.injEq, Prod.mk.injEq] at first
  exact ⟨(List.append_cancel_right first.1).symm, first.2.symm⟩

/-- Lines are read back from the text they make, when their number is known. -/
theorem joinLines_injective {left right : List (List Char)}
    (count : left.length = right.length)
    (insideLeft : ∀ line ∈ left, '\n' ∉ line)
    (insideRight : ∀ line ∈ right, '\n' ∉ line)
    (same : joinLines left = joinLines right) : left = right := by
  induction left generalizing right with
  | nil => cases right with
    | nil => rfl
    | cons => cases count
  | cons line lines ih =>
      cases right with
      | nil => cases count
      | cons other others =>
          have ends := insideLeft line List.mem_cons_self
          have theirs := insideRight other List.mem_cons_self
          cases lines with
          | nil =>
              cases others with
              | nil =>
                  rw [joinLines_singleton, joinLines_singleton] at same
                  rw [List.append_cancel_right same]
              | cons => cases count
          | cons next lines =>
              cases others with
              | nil => cases count
              | cons last others =>
                  rw [joinLines_cons, joinLines_cons] at same
                  obtain ⟨rfl, rest⟩ := eq_of_append_newline ends theirs same
                  rw [ih (Nat.succ.inj count)
                    (fun line member =>
                      insideLeft line (List.mem_cons_of_mem _ member))
                    (fun line member =>
                      insideRight line (List.mem_cons_of_mem _ member)) rest]

theorem newline_notMem_textLines (text : List Char) :
    ∀ line ∈ textLines text, '\n' ∉ line := by
  obtain ⟨_, whole, unfinished⟩ := splitLines_spec '\n' text
  intro line member
  obtain member | member := List.mem_append.mp member
  · obtain ⟨closed, here, rfl⟩ := List.mem_map.mp member
    obtain ⟨body, inside, rfl⟩ := whole closed here
    simpa using inside
  · split at member
    · cases member
    · cases List.mem_singleton.mp member
      exact unfinished

/-! ## Patterns -/

/-- The first match of a pattern that begins with a word, where no word
character stands before it. -/
def searchWord {Found : Type*} (classes : CharClasses)
    (pattern : List Char → Option Found) : Bool → List Char → Option Found
  | _, [] => none
  | inWord, char :: rest =>
      (if inWord then none else pattern (char :: rest)).or
        (searchWord classes pattern (classes.isWord char) rest)

/-- `word\s*:\s*(value+)\s*;` -/
def keywordAt (word : List Char) (isValue : Char → Bool) (text : List Char) :
    Option (List Char) :=
  match (stripPrefix word text).map (List.dropWhile isSpace) with
  | some (':' :: rest) =>
      let rest := rest.dropWhile isSpace
      match (rest.dropWhile isValue).dropWhile isSpace with
      | ';' :: _ =>
          if rest.takeWhile isValue = [] then none
          else some (rest.takeWhile isValue)
      | _ => none
  | _ => none

def CharClasses.number (classes : CharClasses) (digits : List Char) : Nat :=
  digits.foldl (fun value digit => 10 * value + (classes.decimal digit).getD 0)
    0

end QuartzFire
