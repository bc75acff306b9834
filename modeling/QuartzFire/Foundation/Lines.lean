import Mathlib.Data.List.Basic

/-!
# Lines of a growing text

A text is a list of symbols in which a terminator closes each line.  Symbols
after the last terminator are a line that its writer has not finished.
-/

namespace QuartzFire

variable {Symbol : Type*} {terminator : Symbol}

/-- One whole line with its terminator. -/
def IsLine (terminator : Symbol) (line : List Symbol) : Prop :=
  ∃ body, terminator ∉ body ∧ line = body ++ [terminator]

theorem IsLine.ne_nil {line : List Symbol} (whole : IsLine terminator line) :
    line ≠ [] := by
  obtain ⟨body, _, rfl⟩ := whole
  simp

theorem IsLine.terminator_mem {line : List Symbol}
    (whole : IsLine terminator line) : terminator ∈ line := by
  obtain ⟨body, _, rfl⟩ := whole
  simp

theorem IsLine.cons {line : List Symbol} {symbol : Symbol}
    (whole : IsLine terminator line) (other : symbol ≠ terminator) :
    IsLine terminator (symbol :: line) := by
  obtain ⟨body, inside, rfl⟩ := whole
  exact ⟨symbol :: body, by simp [Ne.symm other, inside], rfl⟩

theorem IsLine.append_left {front line : List Symbol}
    (whole : IsLine terminator line) (inside : terminator ∉ front) :
    IsLine terminator (front ++ line) := by
  obtain ⟨body, none_inside, rfl⟩ := whole
  exact ⟨front ++ body, by simp [inside, none_inside],
    (List.append_assoc _ _ _).symm⟩

variable [DecidableEq Symbol]

/-- The first line of a text and what follows it. -/
def takeLine (terminator : Symbol) :
    List Symbol → Option (List Symbol × List Symbol)
  | [] => none
  | symbol :: rest =>
      if symbol = terminator then some ([symbol], rest)
      else (takeLine terminator rest).map fun parts =>
        (symbol :: parts.1, parts.2)

/-- The whole lines of a text and the symbols after them. -/
def splitLines (terminator : Symbol) :
    List Symbol → List (List Symbol) × List Symbol
  | [] => ([], [])
  | symbol :: rest =>
      if symbol = terminator then
        ([symbol] :: (splitLines terminator rest).1,
          (splitLines terminator rest).2)
      else
        match splitLines terminator rest with
        | ([], tail) => ([], symbol :: tail)
        | (line :: lines, tail) => ((symbol :: line) :: lines, tail)

theorem takeLine_append_singleton {body : List Symbol}
    (inside : terminator ∉ body) (rest : List Symbol) :
    takeLine terminator (body ++ terminator :: rest) =
      some (body ++ [terminator], rest) := by
  induction body with
  | nil => simp [takeLine]
  | cons symbol body ih =>
      rw [List.mem_cons, not_or] at inside
      simp [takeLine, Ne.symm inside.1, ih inside.2]

theorem IsLine.takeLine {line : List Symbol} (whole : IsLine terminator line)
    (rest : List Symbol) :
    takeLine terminator (line ++ rest) = some (line, rest) := by
  obtain ⟨body, inside, rfl⟩ := whole
  rw [List.append_assoc]
  exact takeLine_append_singleton inside rest

theorem takeLine_eq_none {text : List Symbol} :
    takeLine terminator text = none ↔ terminator ∉ text := by
  induction text with
  | nil => simp [takeLine]
  | cons symbol text ih =>
      rw [takeLine, List.mem_cons, not_or, ← ih]
      split_ifs with same
      · simp [same]
      · simp [Ne.symm same]

theorem takeLine_spec {text line rest : List Symbol}
    (taken : takeLine terminator text = some (line, rest)) :
    IsLine terminator line ∧ text = line ++ rest := by
  induction text generalizing line with
  | nil => cases taken
  | cons symbol text ih =>
      rw [takeLine] at taken
      split_ifs at taken with same
      · cases taken
        exact ⟨⟨[], by simp, by simp [same]⟩, rfl⟩
      · obtain ⟨⟨front, back⟩, inner, made⟩ := Option.map_eq_some_iff.mp taken
        cases made
        obtain ⟨whole, rfl⟩ := ih inner
        exact ⟨whole.cons same, rfl⟩

/-- The lines and the tail make up the text, each line is whole and none is
left in the tail. -/
theorem splitLines_spec (terminator : Symbol) (text : List Symbol) :
    text = (splitLines terminator text).1.flatten ++
        (splitLines terminator text).2 ∧
      (∀ line ∈ (splitLines terminator text).1, IsLine terminator line) ∧
        terminator ∉ (splitLines terminator text).2 := by
  induction text with
  | nil => simp [splitLines]
  | cons symbol text ih =>
      obtain ⟨parts, whole, tail⟩ := ih
      rw [splitLines]
      split_ifs with same
      · refine ⟨by simp [← parts], ?_, tail⟩
        rw [List.forall_mem_cons]
        exact ⟨⟨[], by simp, by simp [same]⟩, whole⟩
      · cases split : splitLines terminator text with
        | mk lines rest =>
            rw [split] at parts whole tail
            cases lines with
            | nil => simp_all [Ne.symm same]
            | cons line lines =>
                obtain ⟨first, others⟩ := List.forall_mem_cons.mp whole
                refine ⟨by simp [parts], ?_, tail⟩
                exact List.forall_mem_cons.mpr ⟨first.cons same, others⟩

/-- A whole line that a text of lines begins with is the first of them. -/
theorem IsLine.eq_head {line rest tail : List Symbol}
    {lines : List (List Symbol)} (whole : IsLine terminator line)
    (wholes : ∀ line ∈ lines, IsLine terminator line)
    (unfinished : terminator ∉ tail)
    (same : line ++ rest = lines.flatten ++ tail) :
    ∃ others, lines = line :: others ∧ rest = others.flatten ++ tail := by
  cases lines with
  | nil =>
      refine absurd ?_ unfinished
      rw [List.flatten_nil, List.nil_append] at same
      rw [← same]
      exact List.mem_append_left _ whole.terminator_mem
  | cons first others =>
      have taken := whole.takeLine rest
      rw [same, List.flatten_cons, List.append_assoc,
        (wholes first List.mem_cons_self).takeLine] at taken
      cases taken
      exact ⟨others, rfl, rfl⟩

end QuartzFire
