import QuartzFire.ContentFiltering.Model
import QuartzFire.Foundation.Blanks
import QuartzFire.Foundation.FirstMatch
import QuartzFire.Foundation.TextLines
import QuartzFire.Foundation.Words

/-!
# Overriding the stock configuration

Each override replaces the first line that looks like its key, in a comment or
not, and comes last where none does.  What the server then reads are the live
assignments of the lines.
-/

namespace QuartzFire.ContentFiltering

open FirstMatch (replaceFirst replaceAll)
open TextLines

/-- One directive.  Its key is a word and its value stands on one line. -/
structure Override where
  key : List Char
  value : List Char
  key_ne_nil : key ≠ []
  word : ∀ char ∈ key, char ≠ '=' ∧ char ≠ '#' ∧ isWhitespace char = false
  one_line : '\n' ∉ value
  trimmed : trim value = value

/-- A key and a value that can stand in a directive. -/
def fits (key value : List Char) : Bool :=
  !key.isEmpty && key.all (fun char =>
    char != '=' && char != '#' && !isWhitespace char) &&
    value.all (fun char => char != '\n') && trim value == value

/-- One directive, of a key and a value that are known to fit. -/
def Override.of (key value : String)
    (fit : fits key.toList value.toList = true) : Override where
  key := key.toList
  value := value.toList
  key_ne_nil := by
    intro empty
    simp [fits, empty] at fit
  word := by
    intro char member
    simp only [fits, Bool.and_eq_true, List.all_eq_true] at fit
    obtain ⟨⟨⟨-, word⟩, -⟩, -⟩ := fit
    have word' := word char member
    simp only [bne_iff_ne, Bool.not_eq_true'] at word'
    exact ⟨word'.1.1, word'.1.2, word'.2⟩
  one_line := by
    intro member
    simp only [fits, Bool.and_eq_true, List.all_eq_true] at fit
    exact absurd (fit.1.2 _ member) (by decide)
  trimmed := by
    simp only [fits, Bool.and_eq_true] at fit
    exact beq_iff_eq.mp fit.2

def Override.rendered (override : Override) : List Char :=
  if override.value = [] then override.key ++ [' ', '=']
  else override.key ++ [' ', '=', ' '] ++ override.value

/-- The line without the signs of a comment before it. -/
def uncommented (line : List Char) : List Char :=
  ((line.dropWhile isWhitespace).dropWhile fun char => char == '#').dropWhile
    isWhitespace

/-- What is taken for the key: all up to a `=` or a space. -/
def firstWord (line : List Char) : List Char :=
  (uncommented line).takeWhile fun char => char != '=' && char != ' '

def applyOverrides (body : List Char) (overrides : List Override) : List Char :=
  unlines (overrides.foldl
    (fun lines override =>
      replaceFirst firstWord Override.key Override.rendered override lines)
    (lines body))

/-! ## What the server reads -/

def assignment (text : List Char) : Option (List Char × List Char) :=
  (splitOnce '=' text).map fun parts => (trim parts.1, trim parts.2)

/-- The directive of a line that is no comment. -/
def live (line : List Char) : Option (List Char × List Char) :=
  let start := line.dropWhile isWhitespace
  if start.head? = some '#' then none else assignment start

/-- The directive of a line, were it no comment. -/
def directive (line : List Char) : Option (List Char × List Char) :=
  assignment (uncommented line)

/-- The line assigns none of the keys. -/
def keeps (overrides : List Override) (line : List Char) : Bool :=
  !overrides.any fun override =>
    (directive line).map Prod.fst = some override.key

/-- Each key has one live assignment, that of its override; lines of other keys
stay as they are and in order; a second run changes nothing. -/
structure Overridden (body : List Char) (overrides : List Override) : Prop where
  live : ∀ override ∈ overrides,
    ((lines (applyOverrides body overrides)).filterMap live).filter
        (fun read => read.1 = override.key) =
      [(override.key, override.value)]
  kept : (lines (applyOverrides body overrides)).filter (keeps overrides) =
    (lines body).filter (keeps overrides)
  again : applyOverrides (applyOverrides body overrides) overrides =
    applyOverrides body overrides

/-- The first line of a key is a directive.  All others have no live assignment
of a key, and no carriage return before that of the line's end. -/
structure Clean (body : List Char) (overrides : List Override) : Prop where
  some_line : overrides ≠ [] ∨ lines body ≠ []
  first : ∀ override ∈ overrides, ∀ line,
    (lines body).find? (fun line => decide (firstWord line = override.key)) =
        some line →
      ∃ other ∈ overrides, (directive line).map Prod.fst = some other.key
  others : ∀ front line back, lines body = front ++ line :: back →
    (∀ override ∈ overrides, override.key = firstWord line →
      ∃ earlier ∈ front, firstWord earlier = firstWord line) →
    line.getLast? ≠ some '\r' ∧
      ∀ override ∈ overrides, (live line).map Prod.fst ≠ some override.key

/-! ## Rendered lines -/

theorem trim_eq_trimBy (text : List Char) :
    trim text = trimBy isWhitespace text := rfl

namespace Override

variable (override : Override)

theorem key_head {char : Char} (first : override.key.head? = some char) :
    char ≠ '=' ∧ char ≠ '#' ∧ isWhitespace char = false :=
  override.word char (List.mem_of_mem_head? first)

theorem trim_key : trim override.key = override.key := by
  apply trimBy_of_ends
  · intro char first
    exact (override.key_head first).2.2
  · intro char last
    exact (override.word char (List.mem_of_getLast? last)).2.2

theorem rendered_eq :
    ∃ back, override.rendered = override.key ++ ' ' :: '=' :: back ∧
      trim back = override.value ∧ '\n' ∉ back ∧
      back.getLast? ≠ some '\r' := by
  unfold rendered
  split
  · rename_i empty
    refine ⟨[], rfl, ?_, List.not_mem_nil, by simp⟩
    rw [empty]
    rfl
  · rename_i some'
    refine ⟨' ' :: override.value, by simp, ?_, by simp [override.one_line], ?_⟩
    · rw [trim_eq_trimBy, trimBy_cons (by decide)]
      exact override.trimmed
    · rw [List.getLast?_cons_of_ne_nil some']
      intro last
      have white := last_of_trimBy override.trimmed '\r' last
      exact absurd white (by decide)

theorem rendered_head {char : Char}
    (first : override.rendered.head? = some char) :
    char ≠ '#' ∧ isWhitespace char = false := by
  obtain ⟨back, same, -⟩ := override.rendered_eq
  rw [same, List.head?_append_of_ne_nil _ override.key_ne_nil] at first
  exact (override.key_head first).2

theorem dropWhile_rendered :
    override.rendered.dropWhile isWhitespace = override.rendered :=
  dropWhile_eq_self.mpr fun _ first => (override.rendered_head first).2

theorem uncommented_rendered :
    uncommented override.rendered = override.rendered := by
  rw [uncommented, dropWhile_rendered]
  have uncovered : override.rendered.dropWhile (fun char => char == '#') =
      override.rendered :=
    dropWhile_eq_self.mpr fun char first =>
      beq_false_of_ne (override.rendered_head first).1
  rw [uncovered, dropWhile_rendered]

theorem firstWord_rendered : firstWord override.rendered = override.key := by
  rw [firstWord, uncommented_rendered]
  obtain ⟨back, same, -⟩ := override.rendered_eq
  rw [same, List.takeWhile_append_of_pos]
  · simp
  · intro char member
    obtain ⟨sign, -, white⟩ := override.word char member
    have space : char ≠ ' ' := by
      rintro rfl
      exact absurd white (by decide)
    simp [sign, space]

theorem assignment_rendered :
    assignment override.rendered = some (override.key, override.value) := by
  obtain ⟨back, same, value, -⟩ := override.rendered_eq
  have parts : splitOnce '=' override.rendered =
      some (override.key ++ [' '], back) := by
    apply splitOnce_eq_some.mpr
    constructor
    · rw [same]
      simp
    · intro member
      rcases List.mem_append.mp member with inside | space
      · exact (override.word '=' inside).1 rfl
      · exact absurd (List.mem_singleton.mp space) (by decide)
  rw [assignment, parts, Option.map_some, value, trim_eq_trimBy,
    trimBy_concat (by decide), ← trim_eq_trimBy, trim_key]

theorem directive_rendered :
    directive override.rendered = some (override.key, override.value) := by
  rw [directive, uncommented_rendered, assignment_rendered]

theorem live_rendered :
    live override.rendered = some (override.key, override.value) := by
  rw [live, dropWhile_rendered]
  have plain : override.rendered.head? ≠ some '#' := fun first =>
    (override.rendered_head first).1 rfl
  rw [if_neg plain, assignment_rendered]

theorem newline_not_mem_rendered : '\n' ∉ override.rendered := by
  obtain ⟨back, same, -, plain, -⟩ := override.rendered_eq
  rw [same]
  intro member
  rcases List.mem_append.mp member with inside | behind
  · exact absurd (override.word '\n' inside).2.2 (by decide)
  · simp [plain] at behind

theorem chomp_rendered : chomp override.rendered = override.rendered := by
  obtain ⟨back, same, -, -, last⟩ := override.rendered_eq
  apply chomp_eq_self.mpr
  rw [same, List.getLast?_append_of_ne_nil _ (List.cons_ne_nil _ _),
    List.getLast?_cons_cons]
  cases back with
  | nil => simp
  | cons char rest =>
      rw [List.getLast?_cons_cons]
      exact last

end Override

/-! ## The carriage return of a line's end -/

/-- The same, or with a carriage return more. -/
def Returned (text longer : List Char) : Prop :=
  longer = text ∨ longer = text ++ ['\r']

theorem returned_chomp (line : List Char) : Returned (chomp line) line := by
  rcases chomp_cases line with same | longer
  · exact .inl same.symm
  · exact .inr longer

theorem Returned.dropWhile {text longer : List Char}
    (returned : Returned text longer) (drops : Char → Bool) :
    Returned (text.dropWhile drops) (longer.dropWhile drops) := by
  rcases returned with rfl | rfl
  · exact .inl rfl
  · rw [List.dropWhile_append]
    split
    · rename_i empty
      rw [List.isEmpty_iff.mp empty, List.dropWhile_cons]
      split
      · exact .inl rfl
      · exact .inr rfl
    · exact .inr rfl

theorem Returned.assignment_eq {text longer : List Char}
    (returned : Returned text longer) : assignment longer = assignment text := by
  rcases returned with rfl | rfl
  · rfl
  · unfold assignment
    cases parts : splitOnce '=' text with
    | some parts' =>
        obtain ⟨front, back⟩ := parts'
        obtain ⟨rfl, absent⟩ := splitOnce_eq_some.mp parts
        have longer : splitOnce '=' (front ++ '=' :: back ++ ['\r']) =
            some (front, back ++ ['\r']) :=
          splitOnce_eq_some.mpr ⟨by simp, absent⟩
        rw [longer, Option.map_some, Option.map_some, trim_eq_trimBy (_ ++ _),
          trimBy_concat (by decide), ← trim_eq_trimBy]
    | none =>
        have absent := splitOnce_eq_none.mp parts
        have longer : splitOnce '=' (text ++ ['\r']) = none :=
          splitOnce_eq_none.mpr (by simp [absent])
        rw [longer]

theorem Returned.head_eq {text longer : List Char}
    (returned : Returned text longer) :
    longer.head? = some '#' ↔ text.head? = some '#' := by
  rcases returned with rfl | rfl
  · exact Iff.rfl
  · cases text with
    | nil => simp
    | cons char rest => simp

theorem live_chomp (line : List Char) : live (chomp line) = live line := by
  have returned := (returned_chomp line).dropWhile isWhitespace
  have hash := returned.head_eq
  change ite _ _ _ = ite _ _ _
  rw [returned.assignment_eq]
  exact if_congr hash.symm rfl rfl

theorem directive_chomp (line : List Char) :
    directive (chomp line) = directive line :=
  ((((returned_chomp line).dropWhile _).dropWhile _).dropWhile
    _).assignment_eq.symm

/-! ## The walk over the stock lines -/

section Walk

variable {overrides : List Override} {body : List Char}

/-- The lines of the result. -/
def overridden (overrides : List Override) (body : List Char) :
    List (List Char) :=
  replaceAll firstWord Override.key Override.rendered overrides (lines body)

/-- The stock lines that stay. -/
def staying (overrides : List Override) (body : List Char) :
    List (List Char) :=
  FirstMatch.left firstWord Override.key overrides (lines body)

theorem keeps_rendered {override : Override} (member : override ∈ overrides) :
    keeps overrides override.rendered = false := by
  rw [keeps, Bool.not_eq_false', List.any_eq_true]
  exact ⟨override, member, by simp [Override.directive_rendered]⟩

theorem keeps_chomp (line : List Char) :
    keeps overrides (chomp line) = keeps overrides line := by
  rw [keeps, keeps, directive_chomp]

section Distinct

variable (distinct : (overrides.map Override.key).Nodup)

include distinct

theorem applyOverrides_eq :
    applyOverrides body overrides = unlines (overridden overrides body) := by
  rw [applyOverrides, FirstMatch.foldl_replaceFirst
    Override.firstWord_rendered distinct, overridden]

theorem overridden_perm :
    (overridden overrides body).Perm
      (overrides.map Override.rendered ++ staying overrides body) :=
  FirstMatch.replaceAll_perm distinct _

omit distinct in
theorem overridden_ne_nil :
    overridden overrides body ≠ [] ↔ overrides ≠ [] ∨ lines body ≠ [] :=
  FirstMatch.replaceAll_ne_nil

theorem newline_not_mem_replaceAll {stock : List (List Char)}
    (plain : ∀ line ∈ stock, '\n' ∉ line) :
    ∀ line ∈ replaceAll firstWord Override.key Override.rendered overrides
      stock, '\n' ∉ line := by
  intro line member
  have parts := @FirstMatch.replaceAll_perm _ _ _ _ firstWord Override.key
    Override.rendered overrides distinct stock
  rcases List.mem_append.mp (parts.mem_iff.mp member) with new | stays
  · obtain ⟨override, -, rfl⟩ := List.mem_map.mp new
    exact override.newline_not_mem_rendered
  · exact plain line ((FirstMatch.left_sublist _ _).mem stays)

theorem newline_not_mem_overridden :
    ∀ line ∈ overridden overrides body, '\n' ∉ line :=
  newline_not_mem_replaceAll distinct fun _ member => newline_not_mem member

theorem lines_applyOverrides (nonempty : overridden overrides body ≠ []) :
    lines (applyOverrides body overrides) =
      (overridden overrides body).map chomp := by
  rw [applyOverrides_eq distinct]
  exact lines_unlines nonempty (newline_not_mem_overridden distinct)

omit distinct in
theorem live_rendered_all :
    (overrides.map Override.rendered).filterMap live =
      overrides.map fun override => (override.key, override.value) := by
  induction overrides with
  | nil => rfl
  | cons override rest ih =>
      rw [List.map_cons, List.filterMap_cons, override.live_rendered, ih]
      rfl

theorem filter_rendered {override : Override} (member : override ∈ overrides) :
    ((overrides.map Override.rendered).filterMap live).filter
        (fun read => read.1 = override.key) =
      [(override.key, override.value)] := by
  rw [live_rendered_all]
  induction overrides with
  | nil => cases member
  | cons head tail ih =>
      rw [List.map_cons, List.nodup_cons] at distinct
      rw [List.map_cons]
      by_cases same : head.key = override.key
      · have alone : (tail.map fun other => (other.key, other.value)).filter
            (fun read => read.1 = override.key) = [] := by
          refine List.filter_eq_nil_iff.mpr fun read inside => ?_
          obtain ⟨other, there, rfl⟩ := List.mem_map.mp inside
          rw [decide_eq_true_eq]
          intro own
          apply distinct.1
          rw [same, ← own]
          exact List.mem_map_of_mem there
        rw [List.filter_cons_of_pos (by simpa using same), alone]
        rcases List.mem_cons.mp member with rfl | later
        · rfl
        · refine absurd ?_ distinct.1
          rw [same]
          exact List.mem_map_of_mem later
      · rw [List.filter_cons_of_neg (by simpa using same)]
        rcases List.mem_cons.mp member with rfl | later
        · exact absurd rfl same
        · exact ih distinct.2 later

/-- One live assignment of the key, and none where the line was left. -/
theorem live_iff (nonempty : overridden overrides body ≠ [])
    {override : Override} (member : override ∈ overrides) :
    ((lines (applyOverrides body overrides)).filterMap live).filter
        (fun read => read.1 = override.key) =
      [(override.key, override.value)] ↔
    ∀ line ∈ staying overrides body,
      (live line).map Prod.fst ≠ some override.key := by
  have reads : (lines (applyOverrides body overrides)).filterMap live =
      (overridden overrides body).filterMap live := by
    rw [lines_applyOverrides distinct nonempty, List.filterMap_map]
    exact congrArg (List.filterMap · _) (funext live_chomp)
  have parts := ((@overridden_perm overrides body distinct).filterMap
    live).filter fun read => decide (read.1 = override.key)
  rw [List.filterMap_append, List.filter_append,
    filter_rendered distinct member, ← reads] at parts
  have alone : (((staying overrides body).filterMap live).filter
        fun read => decide (read.1 = override.key)) = [] ↔
      ∀ line ∈ staying overrides body,
        (live line).map Prod.fst ≠ some override.key := by
    rw [List.filter_eq_nil_iff]
    constructor
    · intro none line stays same
      obtain ⟨read, found, own⟩ := Option.map_eq_some_iff.mp same
      exact none read (List.mem_filterMap.mpr ⟨line, stays, found⟩)
        (decide_eq_true own)
    · intro other read inside same
      obtain ⟨line, stays, found⟩ := List.mem_filterMap.mp inside
      apply other line stays
      rw [found, Option.map_some, of_decide_eq_true same]
  rw [← alone]
  constructor
  · intro single
    rw [single] at parts
    have counts := parts.length_eq
    rw [List.length_append] at counts
    apply List.eq_nil_of_length_eq_zero
    omega
  · intro empty
    rw [empty, List.append_nil] at parts
    exact List.perm_singleton.mp parts

theorem kept_iff (nonempty : overridden overrides body ≠ [])
    (returns : ∀ line ∈ staying overrides body, line.getLast? ≠ some '\r') :
    (lines (applyOverrides body overrides)).filter (keeps overrides) =
      (lines body).filter (keeps overrides) ↔
    ∀ line ∈ FirstMatch.taken firstWord Override.key overrides (lines body),
      keeps overrides line = false := by
  have same : (lines (applyOverrides body overrides)).filter
      (keeps overrides) = (staying overrides body).filter (keeps overrides) := by
    rw [lines_applyOverrides distinct nonempty, List.filter_map]
    have kept : (overridden overrides body).filter
        (keeps overrides ∘ chomp) =
        (staying overrides body).filter (keeps overrides) := by
      have same : keeps overrides ∘ chomp = keeps overrides :=
        funext keeps_chomp
      rw [same]
      exact FirstMatch.filter_replaceAll
        (fun override member => keeps_rendered member) _
    rw [kept]
    refine map_chomp_eq_self fun line member => chomp_eq_self.mpr ?_
    exact returns line (List.mem_of_mem_filter member)
  rw [same]
  exact FirstMatch.filter_left_eq_iff

theorem again_iff (nonempty : overridden overrides body ≠ []) :
    applyOverrides (applyOverrides body overrides) overrides =
      applyOverrides body overrides ↔
    ∀ line ∈ staying overrides body, line.getLast? ≠ some '\r' := by
  have walked : applyOverrides (applyOverrides body overrides) overrides =
      unlines (replaceAll firstWord Override.key Override.rendered overrides
        ((overridden overrides body).map chomp)) := by
    rw [applyOverrides_eq distinct, overridden,
      lines_applyOverrides distinct nonempty]
  rw [walked, applyOverrides_eq distinct]
  have parts := @overridden_perm overrides body distinct
  constructor
  · intro same line stays ends
    have chomped : ∀ line ∈ (overridden overrides body).map chomp,
        '\n' ∉ line := by
      intro line member
      obtain ⟨whole, there, rfl⟩ := List.mem_map.mp member
      exact not_mem_chomp (newline_not_mem_overridden distinct whole there)
    have undone := unlines_injective
      (FirstMatch.replaceAll_ne_nil.mpr (.inr (by simpa using nonempty)))
      nonempty (newline_not_mem_replaceAll distinct chomped)
      (newline_not_mem_overridden distinct) same
    have inside := parts.mem_iff.mpr (List.mem_append_right _ stays)
    rcases FirstMatch.of_replaceAll_map_eq undone line inside with
      kept | ⟨override, -, rfl⟩
    · exact chomp_eq_self.mp kept ends
    · exact chomp_eq_self.mp override.chomp_rendered ends
  · intro returns
    have plain : (overridden overrides body).map chomp =
        overridden overrides body := by
      refine map_chomp_eq_self fun line member => ?_
      rcases List.mem_append.mp (parts.mem_iff.mp member) with new | stays
      · obtain ⟨override, -, rfl⟩ := List.mem_map.mp new
        exact override.chomp_rendered
      · exact chomp_eq_self.mpr (returns line stays)
    rw [plain, overridden, FirstMatch.replaceAll_replaceAll
      Override.firstWord_rendered distinct]

omit distinct in
theorem taken_iff :
    (∀ line ∈ FirstMatch.taken firstWord Override.key overrides (lines body),
      keeps overrides line = false) ↔
    ∀ override ∈ overrides, ∀ line, (lines body).find?
        (fun line => decide (firstWord line = override.key)) = some line →
      ∃ other ∈ overrides, (directive line).map Prod.fst = some other.key := by
  have assigns : ∀ line, keeps overrides line = false ↔
      ∃ other ∈ overrides, (directive line).map Prod.fst = some other.key := by
    intro line
    simp only [keeps, Bool.not_eq_false', List.any_eq_true, decide_eq_true_eq]
  constructor
  · intro covered override member line found
    exact (assigns line).mp (covered line
      (FirstMatch.mem_taken.mpr ⟨override, member, found⟩))
  · intro covered line member
    obtain ⟨override, inside, found⟩ := FirstMatch.mem_taken.mp member
    exact (assigns line).mpr (covered override inside line found)

theorem Clean.overridden (clean : Clean body overrides) :
    Overridden body overrides := by
  have nonempty := overridden_ne_nil.mpr clean.some_line
  have each : ∀ line ∈ staying overrides body, line.getLast? ≠ some '\r' ∧
      ∀ override ∈ overrides,
        (live line).map Prod.fst ≠ some override.key := by
    intro line stays
    obtain ⟨front, back, same, covered⟩ := FirstMatch.mem_left.mp stays
    exact clean.others front line back same covered
  have returns := fun line stays => (each line stays).1
  constructor
  · intro override member
    apply (live_iff distinct nonempty member).mpr
    intro line stays
    exact (each line stays).2 override member
  · exact (kept_iff distinct nonempty returns).mpr (taken_iff.mpr clean.first)
  · exact (again_iff distinct nonempty).mpr returns

theorem Overridden.clean (wins : Overridden body overrides) :
    Clean body overrides := by
  have nonempty : overridden overrides body ≠ [] := by
    intro empty
    have none := not_imp_not.mpr overridden_ne_nil.mpr (not_not_intro empty)
    rw [not_or, not_not, not_not] at none
    obtain ⟨rfl, unwritten⟩ := none
    have kept := wins.kept
    rw [applyOverrides, unwritten] at kept
    exact absurd kept (by decide)
  have returns := (again_iff distinct nonempty).mp wins.again
  constructor
  · exact overridden_ne_nil.mp nonempty
  · exact taken_iff.mp ((kept_iff distinct nonempty returns).mp wins.kept)
  · intro front line back same covered
    have stays : line ∈ staying overrides body :=
      FirstMatch.mem_left.mpr ⟨front, back, same, covered⟩
    refine ⟨returns line stays, fun override member => ?_⟩
    exact (live_iff distinct nonempty member).mp (wins.live override member)
      line stays

/-- The overrides win, keep all else and stay if and only if each key's first
line is a directive, and no line beside these is a live one of a key. -/
theorem overridden_iff : Overridden body overrides ↔ Clean body overrides :=
  ⟨Overridden.clean distinct, Clean.overridden distinct⟩

end Distinct

end Walk

/-- The three of a test: one in a comment, one without a value, one new. -/
def testOverrides : List Override :=
  [ .of "icapport" "1345" (by decide),
    .of "filterip" "127.0.0.1" (by decide),
    .of "newkey" "v" (by decide) ]

def testBody : List Char :=
  "#icapport = 1344\nfilterip =\nloglevel = 3\n".toList

theorem test_overridden : Overridden testBody testOverrides := by
  refine (overridden_iff (by decide)).mpr ⟨.inl (by decide), ?_, ?_⟩
  · have covered : ∀ line ∈ FirstMatch.taken firstWord Override.key
        testOverrides (lines testBody), ∃ other ∈ testOverrides,
          (directive line).map Prod.fst = some other.key := by decide
    intro override member line found
    exact covered line (FirstMatch.mem_taken.mpr ⟨override, member, found⟩)
  · have plain : ∀ line ∈ staying testOverrides testBody,
        line.getLast? ≠ some '\r' ∧ ∀ override ∈ testOverrides,
          (live line).map Prod.fst ≠ some override.key := by decide
    intro front line back same covered
    exact plain line (FirstMatch.mem_left.mpr ⟨front, back, same, covered⟩)

/-- A comment that begins with the key is replaced, and the stock value stays
in force. -/
theorem prose_replaced :
    ¬ ∀ (body : List Char) (overrides : List Override),
      (overrides.map Override.key).Nodup → Overridden body overrides := by
  intro always
  have wins := always
    "# icapport is the port to listen on\nicapport = 1344\n".toList
    [.of "icapport" "1345" (by decide)] (by decide)
  have single := wins.live _ List.mem_cons_self
  exact absurd single (by decide)

/-! ## What the renderer overrides -/

theorem fits_number {key : String} (number : Nat)
    (word : fits key.toList [] = true) :
    fits key.toList (toString number).toList = true := by
  have digits : ∀ char ∈ (toString number).toList, char.isDigit = true := by
    intro char member
    rw [toList_toString] at member
    exact isDigit_of_mem_digits member
  have dark : ∀ char ∈ (toString number).toList,
      isWhitespace char = false := by
    intro char member
    apply not_isWhitespace_of_alphanum
    rw [Char.isAlphanum, digits char member, Bool.or_true]
  have trimmed : trim (toString number).toList = (toString number).toList :=
    trimBy_of_ends (fun char first => dark char (List.mem_of_mem_head? first))
      (fun char last => dark char (List.mem_of_getLast? last))
  have one_line : (toString number).toList.all (fun char => char != '\n') =
      true := by
    rw [List.all_eq_true]
    intro char member
    rw [bne_iff_ne]
    rintro rfl
    exact absurd (digits _ member) (by decide)
  simp only [fits, Bool.and_eq_true] at word ⊢
  exact ⟨⟨word.1.1, one_line⟩, beq_iff_eq.mpr trimmed⟩

def LogLevel.e2gLoglevel : LogLevel → Nat
  | .none => 0
  | .blockedOnly => 1
  | .all => 3

def Model.filtergroups (model : Model) : Nat :=
  max model.groups.length 1

/-- What overrides the stock configuration. -/
def confOverrides (model : Model) : List Override :=
  [ .of "filterip" "127.0.0.1" (by decide),
    .of "nodaemon" "on" (by decide),
    .of "icapport" (toString model.listenPort) (fits_number _ (by decide)),
    .of "transparenthttpsport" "" (by decide),
    .of "filterports" "8080" (by decide),
    .of "defaulticapfiltergroup" "1" (by decide),
    .of "filtergroups" (toString model.filtergroups)
      (fits_number _ (by decide)),
    .of "authplugin" "'/etc/e2guardian/authplugins/ip.conf'" (by decide),
    .of "loglevel" (toString model.logLevel.e2gLoglevel)
      (fits_number _ (by decide)),
    .of "loglocation" "'/var/log/e2guardian/access.log'" (by decide),
    .of "logfileformat" "2" (by decide),
    .of "logsyslog" "off" (by decide),
    .of "reportinglevel" "3" (by decide),
    .of "languagedir" "'/usr/share/e2guardian/languages'" (by decide),
    .of "language" "'quartzfire'" (by decide) ]

theorem confOverrides_distinct (model : Model) :
    ((confOverrides model).map Override.key).Nodup := by
  change (["filterip", "nodaemon", "icapport", "transparenthttpsport",
    "filterports", "defaulticapfiltergroup", "filtergroups", "authplugin",
    "loglevel", "loglocation", "logfileformat", "logsyslog", "reportinglevel",
    "languagedir", "language"].map String.toList).Nodup
  rw [List.nodup_map_iff fun _ _ same => String.toList_inj.mp same]
  decide

theorem confOverrides_overridden (model : Model) {body : List Char}
    (clean : Clean body (confOverrides model)) :
    Overridden body (confOverrides model) :=
  clean.overridden (confOverrides_distinct model)

end QuartzFire.ContentFiltering
