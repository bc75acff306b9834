import Mathlib.Data.List.Infix
import QuartzFire.Foundation.Words
import QuartzFire.Guard.ConfigText

/-!
# Configurations as texts

A configuration tree is written one entry a line: a leaf with its value, a node
or a tag with an opening brace and a closing one on a line of its own below its
children.  How a value is quoted is left open, as are the indentation, comment
lines and empty lines.
-/

namespace QuartzFire.Guard

open Pairing TextLines

/-! ## Trees -/

def isNodeChar (char : Char) : Bool :=
  char.isAlphanum || "-_.:".toList.contains char

/-- The name of a node, as a schema has it. -/
structure NodeName where
  text : List Char
  nonempty : text ≠ []
  plain : text.all isNodeChar = true

/-- The entries of a node in order: a leaf, with a value or without, or a node,
under its name alone or with a tag. -/
inductive Boot where
  | done
  | leaf (name : NodeName) (value : Option (List Char)) (rest : Boot)
  | node (name : NodeName) (tag : Option (List Char)) (inner rest : Boot)

namespace Boot

/-- The names that something follows on their line. -/
def heads : Boot → List NodeName
  | done => []
  | leaf _ none rest => rest.heads
  | leaf name (some _) rest => name :: rest.heads
  | node name _ inner rest => name :: (inner.heads ++ rest.heads)

/-- The values and the tags. -/
def words : Boot → List (List Char)
  | done => []
  | leaf _ value rest => value.toList ++ rest.words
  | node _ tag inner rest => tag.toList ++ (inner.words ++ rest.words)

end Boot

/-- How values and tags are written, quoted or not. -/
structure Spelling where
  write : List Char → List Char
  nonempty : ∀ word, write word ≠ []
  trimmed : ∀ word, trim (write word) = write word
  oneLine : ∀ word, '\n' ∉ write word

variable (spelling : Spelling)

/-- A word behind a name. -/
def Spelling.behind : Option (List Char) → List Char
  | none => []
  | some word => ' ' :: spelling.write word

@[simp] theorem Spelling.behind_none : spelling.behind none = [] := rfl

@[simp] theorem Spelling.behind_some (word : List Char) :
    spelling.behind (some word) = ' ' :: spelling.write word := rfl

namespace Boot

/-- The lines of a tree, not indented. -/
def lines : Boot → List (List Char)
  | done => []
  | leaf name value rest => (name.text ++ spelling.behind value) :: rest.lines
  | node name tag inner rest =>
      (name.text ++ spelling.behind tag ++ [' ', '{']) ::
        (inner.lines ++ ['}'] :: rest.lines)

/-- The braces of a tree in reading order, those inside words included. -/
def marks : Boot → List Int
  | done => []
  | leaf _ value rest => braceMarks (spelling.behind value) ++ rest.marks
  | node _ tag inner rest =>
      braceMarks (spelling.behind tag) ++
        1 :: (inner.marks ++ (-1) :: rest.marks)

end Boot

/-- A text whose lines are those of a tree, comments and empty lines apart. -/
def Renders (tree : Boot) (content : String) : Prop :=
  significantLines content = tree.lines spelling

/-! ## Single lines -/

theorem not_mem_of_plain {text : List Char} (plain : text.all isNodeChar = true)
    {char : Char} (other : isNodeChar char = false) : char ∉ text := by
  intro member
  have inside := List.all_eq_true.mp plain char member
  rw [other] at inside
  cases inside

theorem NodeName.not_mem (name : NodeName) {char : Char}
    (other : isNodeChar char = false) : char ∉ name.text :=
  not_mem_of_plain name.plain other

theorem braceMarks_name (name : NodeName) : braceMarks name.text = [] := by
  apply List.filterMap_eq_nil_iff.mpr
  intro char member
  unfold braceMark
  rw [if_neg, if_neg]
  · rintro rfl
    exact name.not_mem rfl member
  · rintro rfl
    exact name.not_mem rfl member

theorem braceMarks_append (front back : List Char) :
    braceMarks (front ++ back) = braceMarks front ++ braceMarks back :=
  List.filterMap_append

/-- A mark that a part does not hold separates where it may stand. -/
theorem isPrefixOf_append_cons {part front back : List Char} {mark : Char}
    (absent : mark ∉ part) :
    part.isPrefixOf (front ++ mark :: back) = part.isPrefixOf front := by
  induction part generalizing front with
  | nil => rw [List.isPrefixOf_nil_left, List.isPrefixOf_nil_left]
  | cons char part ih =>
      rw [List.mem_cons, not_or] at absent
      cases front with
      | nil =>
          rw [List.nil_append, List.isPrefixOf_cons_cons,
            beq_eq_false_iff_ne.mpr (Ne.symm absent.1), Bool.false_and]
          rfl
      | cons first front =>
          rw [List.cons_append, List.isPrefixOf_cons_cons,
            List.isPrefixOf_cons_cons, ih absent.2]

theorem containsText_append_cons {part front back : List Char} {mark : Char}
    (some' : part ≠ []) (absent : mark ∉ part) :
    containsText part (front ++ mark :: back) =
      (containsText part front || containsText part back) := by
  induction front with
  | nil =>
      have first : part.isPrefixOf (mark :: back) = false := by
        rw [← List.nil_append (mark :: back), isPrefixOf_append_cons absent]
        cases part with
        | nil => exact absurd rfl some'
        | cons _ _ => rfl
      have none' : containsText part [] = false := by
        cases part with
        | nil => exact absurd rfl some'
        | cons _ _ => rfl
      rw [none', Bool.false_or, List.nil_append, containsText,
        List.tails_cons, List.any_cons, first, Bool.false_or, containsText]
  | cons char front ih =>
      have first := @isPrefixOf_append_cons part (char :: front) back mark absent
      rw [List.cons_append] at first ⊢
      unfold containsText at ih ⊢
      rw [List.tails_cons, List.any_cons, first, ih, List.tails_cons,
        List.any_cons, Bool.or_assoc]

theorem containsText_of_absent {part text : List Char} {char : Char}
    (inside : char ∈ part) (absent : char ∉ text) :
    containsText part text = false := by
  rw [containsText, List.any_eq_false]
  intro rest member
  rw [Bool.not_eq_true, Bool.eq_false_iff]
  intro starts
  have among := (List.isPrefixOf_iff_prefix.mp starts).mem inside
  exact absent (((List.mem_tails _ _).mp member).mem among)

theorem secretMask_name (name : NodeName) :
    containsText secretMask name.text = false :=
  @containsText_of_absent secretMask _ '*' (by decide) (name.not_mem rfl)

/-- A line is masked where its word is. -/
theorem secretMask_behind (name : NodeName) (word : Option (List Char)) :
    containsText secretMask (name.text ++ spelling.behind word) =
      word.any fun word => containsText secretMask (spelling.write word) := by
  cases word with
  | none =>
      rw [spelling.behind_none, List.append_nil, secretMask_name]
      rfl
  | some word =>
      rw [spelling.behind_some, containsText_append_cons (by decide) (by decide),
        secretMask_name, Bool.false_or]
      rfl

theorem secretMask_opening (line : List Char) :
    containsText secretMask (line ++ [' ', '{']) =
      containsText secretMask line := by
  rw [containsText_append_cons (by decide) (by decide)]
  exact Bool.or_false _

/-- A command is known by the name its line begins with. -/
theorem isPrefixOf_name (name : NodeName) {command : List Char}
    (one : ' ' ∉ command) (rest : List Char) :
    (command ++ [' ']).isPrefixOf (name.text ++ ' ' :: rest) = true ↔
      name.text = command := by
  have blank : ' ' ∉ name.text := name.not_mem rfl
  rw [List.isPrefixOf_iff_prefix]
  constructor
  · rintro ⟨behind, same⟩
    rw [List.append_assoc, List.singleton_append] at same
    have first := splitOnce_eq_some.mpr ⟨same.symm, one⟩
    rw [splitOnce_eq_some.mpr ⟨rfl, blank⟩] at first
    cases first
    rfl
  · rintro rfl
    exact ⟨rest, by simp⟩

theorem isCommand_entry (name : NodeName) (rest : List Char) :
    isCommand (name.text ++ ' ' :: rest) = false ↔
      name.text ≠ "set".toList ∧ name.text ≠ "delete".toList := by
  unfold isCommand
  rw [Bool.or_eq_false_iff, Bool.eq_false_iff, Bool.eq_false_iff]
  apply and_congr
  · exact not_congr (@isPrefixOf_name name "set".toList (by decide) rest)
  · exact not_congr (@isPrefixOf_name name "delete".toList (by decide) rest)

theorem isCommand_of_absent {line : List Char} (blank : ' ' ∉ line) :
    isCommand line = false := by
  unfold isCommand
  rw [Bool.or_eq_false_iff]
  constructor
  · rw [Bool.eq_false_iff]
    intro starts
    exact blank ((List.isPrefixOf_iff_prefix.mp starts).mem (by decide))
  · rw [Bool.eq_false_iff]
    intro starts
    exact blank ((List.isPrefixOf_iff_prefix.mp starts).mem (by decide))

theorem acceptable_closing : Acceptable ['}'] := ⟨rfl, rfl⟩

theorem acceptable_leaf (name : NodeName) (word : List Char) :
    Acceptable (name.text ++ spelling.behind (some word)) ↔
      (name.text ≠ "set".toList ∧ name.text ≠ "delete".toList) ∧
        containsText secretMask (spelling.write word) = false := by
  unfold Acceptable
  rw [secretMask_behind, and_comm]
  apply and_congr
  · exact isCommand_entry name _
  · rfl

theorem acceptable_valueless (name : NodeName) :
    Acceptable (name.text ++ spelling.behind none) := by
  rw [spelling.behind_none, List.append_nil]
  exact ⟨secretMask_name name, isCommand_of_absent (name.not_mem rfl)⟩

theorem acceptable_opening (name : NodeName) (tag : Option (List Char)) :
    Acceptable (name.text ++ spelling.behind tag ++ [' ', '{']) ↔
      (name.text ≠ "set".toList ∧ name.text ≠ "delete".toList) ∧
        ∀ word ∈ tag, containsText secretMask (spelling.write word) = false := by
  unfold Acceptable
  rw [secretMask_opening, secretMask_behind, and_comm]
  apply and_congr
  · cases tag with
    | none =>
        rw [spelling.behind_none, List.append_nil]
        exact isCommand_entry name _
    | some word =>
        rw [spelling.behind_some, List.append_assoc, List.cons_append]
        exact isCommand_entry name _
  · cases tag with
    | none => simp
    | some word => simp

/-! ## Whole trees -/

theorem lines_eq_nil {tree : Boot} :
    tree.lines spelling = [] ↔ tree = .done := by
  cases tree <;> simp [Boot.lines]

/-- The lines pass one by one where the names and the words do. -/
theorem acceptable_lines (tree : Boot) :
    (∀ line ∈ tree.lines spelling, Acceptable line) ↔
      (∀ name ∈ tree.heads,
        name.text ≠ "set".toList ∧ name.text ≠ "delete".toList) ∧
      ∀ word ∈ tree.words,
        containsText secretMask (spelling.write word) = false := by
  induction tree with
  | done => simp [Boot.lines, Boot.heads, Boot.words]
  | leaf name value rest ih =>
      cases value with
      | none =>
          rw [Boot.lines, List.forall_mem_cons, ih, Boot.heads, Boot.words,
            Option.toList_none, List.nil_append]
          exact and_iff_right (acceptable_valueless spelling name)
      | some word =>
          rw [Boot.lines, List.forall_mem_cons, ih, acceptable_leaf, Boot.heads,
            Boot.words, Option.toList_some, List.singleton_append,
            List.forall_mem_cons, List.forall_mem_cons]
          exact and_and_and_comm
  | node name tag inner rest first second =>
      rw [Boot.lines, List.forall_mem_cons, List.forall_mem_append,
        List.forall_mem_cons, first, second, acceptable_opening,
        and_iff_right acceptable_closing, Boot.heads, Boot.words,
        List.forall_mem_cons, List.forall_mem_append, List.forall_mem_append,
        List.forall_mem_append]
      simp only [Option.mem_toList]
      constructor
      · rintro ⟨⟨head, tags⟩, ⟨heads, words⟩, heads', words'⟩
        exact ⟨⟨head, heads, heads'⟩, tags, words, words'⟩
      · rintro ⟨⟨head, heads, heads'⟩, tags, words, words'⟩
        exact ⟨⟨head, tags⟩, ⟨heads, words⟩, heads', words'⟩

theorem braceMarks_lines (tree : Boot) :
    (tree.lines spelling).flatMap braceMarks = tree.marks spelling := by
  induction tree with
  | done => rfl
  | leaf name value rest ih =>
      rw [Boot.lines, List.flatMap_cons, ih, braceMarks_append,
        braceMarks_name, List.nil_append, Boot.marks]
  | node name tag inner rest first second =>
      have opens : braceMarks [' ', '{'] = [1] := rfl
      have closes : braceMarks ['}'] = [-1] := rfl
      rw [Boot.lines, List.flatMap_cons, List.flatMap_append, List.flatMap_cons,
        first, second, braceMarks_append, braceMarks_append, braceMarks_name,
        List.nil_append, opens, closes, Boot.marks, List.append_assoc,
        List.singleton_append, List.singleton_append]

/-- What a text of a tree takes to be accepted. -/
structure Restorable (tree : Boot) (content : String) : Prop where
  fits : content.utf8ByteSize ≤ maxRestoreBytes
  heads : ∀ name ∈ tree.heads,
    name.text ≠ "set".toList ∧ name.text ≠ "delete".toList
  unmasked : ∀ word ∈ tree.words,
    containsText secretMask (spelling.write word) = false
  paired : Paired (tree.marks spelling)

theorem Renders.accepts_iff {tree : Boot} {content : String}
    (renders : Renders spelling tree content) (some' : tree ≠ .done) :
    validateConfigText content = .ok () ↔ Restorable spelling tree content := by
  rw [validateConfigText_eq_ok, renders, acceptable_lines, braceMarks_lines]
  constructor
  · rintro ⟨fits, -, ⟨heads, unmasked⟩, paired⟩
    exact ⟨fits, heads, unmasked, paired⟩
  · rintro ⟨fits, heads, unmasked, paired⟩
    exact ⟨fits, (lines_eq_nil spelling).not.mpr some', ⟨heads, unmasked⟩,
      paired⟩

/-! ## Trees as the box prints them -/

/-- A line that stands for itself in a text. -/
structure IsBootLine (line : List Char) : Prop where
  trimmed : trim line = line
  oneLine : '\n' ∉ line
  significant : isSignificant line = true

theorem isNodeChar_dark {char : Char} (plain : isNodeChar char = true) :
    isWhitespace char = false := by
  unfold isNodeChar at plain
  rcases Bool.or_eq_true_iff.mp plain with letter | mark
  · exact not_isWhitespace_of_alphanum letter
  · have among := List.contains_iff_mem.mp mark
    simp only [String.reduceToList, List.mem_cons, List.not_mem_nil,
      or_false] at among
    rcases among with rfl | rfl | rfl | rfl <;> rfl

theorem NodeName.dark (name : NodeName) {char : Char}
    (member : char ∈ name.text) : isWhitespace char = false :=
  isNodeChar_dark (List.all_eq_true.mp name.plain char member)

/-- What begins with a name and does not end in a blank. -/
theorem isBootLine_of_name (name : NodeName) {rest : List Char}
    (oneLine : '\n' ∉ rest)
    (ends : ∀ char, rest.getLast? = some char → isWhitespace char = false) :
    IsBootLine (name.text ++ rest) := by
  obtain ⟨first, others, whole⟩ := List.exists_cons_of_ne_nil name.nonempty
  have begins : first ∈ name.text := by
    rw [whole]
    exact List.mem_cons_self
  constructor
  · apply trimBy_of_ends
    · intro char head
      rw [whole, List.cons_append, List.head?_cons] at head
      cases head
      exact name.dark begins
    · intro char last
      rw [List.getLast?_append] at last
      cases tail : rest.getLast? with
      | none =>
          rw [tail, Option.none_or] at last
          exact name.dark (List.mem_of_getLast? last)
      | some other =>
          rw [tail, Option.some_or] at last
          cases last
          exact ends _ tail
  · intro member
    rcases List.mem_append.mp member with inName | inRest
    · exact name.not_mem rfl inName
    · exact oneLine inRest
  · have slash : first ≠ '/' := by
      rintro rfl
      exact name.not_mem rfl begins
    have plain : "//".toList.isPrefixOf (first :: (others ++ rest)) = false := by
      show ('/' :: ['/']).isPrefixOf _ = false
      rw [List.isPrefixOf_cons_cons, beq_eq_false_iff_ne.mpr (Ne.symm slash)]
      rfl
    unfold isSignificant
    rw [whole, List.cons_append, plain]
    rfl

theorem Spelling.last_behind (word : Option (List Char)) (char : Char)
    (last : (spelling.behind word).getLast? = some char) :
    isWhitespace char = false := by
  cases word with
  | none => cases last
  | some word =>
      obtain ⟨first, others, whole⟩ :=
        List.exists_cons_of_ne_nil (spelling.nonempty word)
      rw [spelling.behind_some, whole, List.getLast?_cons_cons, ← whole] at last
      exact last_of_trimBy (spelling.trimmed word) char last

theorem Spelling.oneLine_behind (word : Option (List Char)) :
    '\n' ∉ spelling.behind word := by
  cases word with
  | none => exact List.not_mem_nil
  | some word =>
      rw [spelling.behind_some, List.mem_cons, not_or]
      exact ⟨by decide, spelling.oneLine word⟩

theorem isBootLine_leaf (name : NodeName) (value : Option (List Char)) :
    IsBootLine (name.text ++ spelling.behind value) :=
  isBootLine_of_name name (spelling.oneLine_behind value)
    (spelling.last_behind value)

theorem isBootLine_opening (name : NodeName) (tag : Option (List Char)) :
    IsBootLine (name.text ++ spelling.behind tag ++ [' ', '{']) := by
  rw [List.append_assoc]
  apply isBootLine_of_name
  · rw [List.mem_append, not_or]
    exact ⟨spelling.oneLine_behind tag, by decide⟩
  · intro char last
    rw [List.getLast?_append] at last
    cases last
    rfl

theorem isBootLine_closing : IsBootLine ['}'] := ⟨rfl, by decide, rfl⟩

def indent (depth : Nat) : List Char :=
  List.replicate (4 * depth) ' '

/-- The lines of a tree with four spaces for each level. -/
def Boot.print (depth : Nat) : Boot → List (List Char)
  | .done => []
  | .leaf name value rest =>
      (indent depth ++ (name.text ++ spelling.behind value)) ::
        rest.print depth
  | .node name tag inner rest =>
      (indent depth ++ (name.text ++ spelling.behind tag ++ [' ', '{'])) ::
        (inner.print (depth + 1) ++ (indent depth ++ ['}']) ::
          rest.print depth)

theorem trim_indent (depth : Nat) (line : List Char) :
    trim (indent depth ++ line) = trim line := by
  unfold indent
  induction 4 * depth with
  | zero => rfl
  | succ count ih =>
      rw [List.replicate_succ, List.cons_append]
      exact (trimBy_cons rfl).trans ih

/-- A printed line reads as what was indented. -/
structure ReadsBack (line printed : List Char) : Prop where
  same : trim (TextLines.chomp printed) = line
  oneLine : '\n' ∉ printed
  significant : isSignificant line = true

theorem IsBootLine.readsBack {line : List Char} (whole : IsBootLine line)
    (depth : Nat) : ReadsBack line (indent depth ++ line) := by
  have some' : line ≠ [] := by
    rintro rfl
    exact absurd whole.significant (by decide)
  constructor
  · have kept : chomp (indent depth ++ line) = indent depth ++ line := by
      apply chomp_eq_self.mpr
      rw [List.getLast?_append_of_ne_nil _ some']
      intro last
      have dark := last_of_trimBy whole.trimmed _ last
      exact absurd dark (by decide)
    rw [kept, trim_indent, whole.trimmed]
  · rw [List.mem_append, not_or]
    refine ⟨?_, whole.oneLine⟩
    intro member
    have blank := List.eq_of_mem_replicate member
    exact absurd blank (by decide)
  · exact whole.significant

theorem readsBack_print (tree : Boot) (depth : Nat) :
    List.Forall₂ ReadsBack (tree.lines spelling) (tree.print spelling depth) := by
  induction tree generalizing depth with
  | done => exact .nil
  | leaf name value rest ih =>
      exact .cons ((isBootLine_leaf spelling name value).readsBack depth)
        (ih depth)
  | node name tag inner rest first second =>
      apply List.Forall₂.cons
      · exact (isBootLine_opening spelling name tag).readsBack depth
      · apply List.rel_append
        · exact first (depth + 1)
        · exact .cons (isBootLine_closing.readsBack depth) (second depth)

/-- What is read of printed lines. -/
theorem significant_of_readsBack {items printed : List (List Char)}
    (reads : List.Forall₂ ReadsBack items printed) :
    ((printed.map chomp).map trim).filter isSignificant = items ∧
      ∀ line ∈ printed, '\n' ∉ line := by
  induction reads with
  | nil => exact ⟨rfl, by simp⟩
  | cons line _ ih =>
      rw [List.map_cons, List.map_cons, line.same,
        List.filter_cons_of_pos line.significant, ih.1, List.forall_mem_cons]
      exact ⟨rfl, line.oneLine, ih.2⟩

/-- A printed tree is a text of the tree. -/
theorem renders_print {tree : Boot} (some' : tree ≠ .done) :
    Renders spelling tree
      (String.ofList (unlines (tree.print spelling 0))) := by
  obtain ⟨same, plain⟩ :=
    significant_of_readsBack (readsBack_print spelling tree 0)
  have printed : tree.print spelling 0 ≠ [] := by
    cases tree <;> simp_all [Boot.print]
  unfold Renders significantLines
  rw [String.toList_ofList, lines_unlines printed plain, same]

/-! ## The two formats -/

/-- Each line is a command. -/
def SetCommands (content : String) : Prop :=
  ∀ line ∈ lines content.toList,
    trim line = [] ∨ "set ".toList.isPrefixOf (trim line) = true

theorem refuses_commands {content : String} (commands : SetCommands content) :
    validateConfigText content ≠ .ok () := by
  rw [ne_eq, validateConfigText_eq_ok]
  rintro ⟨-, some', acceptable, -⟩
  obtain ⟨line, member⟩ := List.exists_mem_of_ne_nil _ some'
  have plain := (acceptable line member).2
  obtain ⟨inside, counts⟩ := List.mem_filter.mp member
  obtain ⟨raw, among, rfl⟩ := List.mem_map.mp inside
  rcases commands raw among with empty | command
  · rw [empty] at counts
    exact absurd counts (by decide)
  · unfold isCommand at plain
    rw [command] at plain
    cases plain

/-- No value and no tag is what a secret is masked with. -/
def Unmasked (tree : Boot) : Prop :=
  ∀ word ∈ tree.words, word ≠ secretMask

/-- A text is accepted if it renders a tree, and refused if it is commands. -/
structure ToldApart (content : String) : Prop where
  accepted : ∀ spelling tree, Renders spelling tree content → tree ≠ .done →
    Unmasked tree → validateConfigText content = .ok ()
  refused : SetCommands content → validateConfigText content ≠ .ok ()

theorem toldApart_iff (content : String) :
    ToldApart content ↔
      ∀ spelling tree, Renders spelling tree content → tree ≠ .done →
        Unmasked tree → Restorable spelling tree content := by
  constructor
  · intro apart spelling tree renders some' unmasked
    exact (renders.accepts_iff spelling some').mp
      (apart.accepted spelling tree renders some' unmasked)
  · intro restorable
    constructor
    · intro spelling tree renders some' unmasked
      exact (renders.accepts_iff spelling some').mpr
        (restorable spelling tree renders some' unmasked)
    · exact refuses_commands

/-! ## The rule that inspection marks -/

def escape (char : Char) : List Char :=
  if char = '"' ∨ char = '\\' then ['\\', char]
  else if char = '\n' then ['\\', 'n']
  else [char]

theorem newline_not_mem_escape (char : Char) : '\n' ∉ escape char := by
  unfold escape
  split
  · rename_i special
    rcases special with rfl | rfl <;> decide
  · split
    · decide
    · rename_i other
      rw [List.mem_singleton]
      exact Ne.symm other

/-- Every value in quotes. -/
def inQuotes : Spelling where
  write word := '"' :: (word.flatMap escape ++ ['"'])
  nonempty _ := List.cons_ne_nil _ _
  trimmed word := by
    apply trimBy_of_ends
    · intro char head
      cases head
      rfl
    · intro char last
      rw [← List.cons_append, List.getLast?_concat] at last
      cases last
      rfl
  oneLine word := by
    rw [List.mem_cons, List.mem_append, List.mem_flatMap]
    rintro (quote | ⟨char, -, inside⟩ | quote)
    · cases quote
    · exact newline_not_mem_escape char inside
    · exact absurd quote (by decide)

def NodeName.of (text : String) (nonempty : text.toList ≠ [])
    (plain : text.toList.all isNodeChar = true) : NodeName :=
  ⟨text.toList, nonempty, plain⟩

/-- The forward rule that `diffRule` leaves under inspection. -/
def inspectedRule : Boot :=
  let node (name : NodeName) (inner : Boot) := Boot.node name none inner .done
  node (.of "firewall" (by decide) rfl) <|
  node (.of "ipv4" (by decide) rfl) <|
  node (.of "forward" (by decide) rfl) <|
  node (.of "filter" (by decide) rfl) <|
  .node (.of "rule" (by decide) rfl) (some "10".toList)
    (.leaf (.of "action" (by decide) rfl) (some "queue".toList) <|
      .leaf (.of "queue" (by decide) rfl) (some "0".toList) <|
      .leaf (.of "queue-options" (by decide) rfl) (some "bypass".toList) <|
      .node (.of "set" (by decide) rfl) none
        (.leaf (.of "connection-mark" (by decide) rfl) (some "81".toList) .done)
        .done)
    .done

/-- A backup of a rule under inspection is refused as a list of commands. -/
theorem inspected_refused : ¬ ∀ content, ToldApart content := by
  intro apart
  have some' : inspectedRule ≠ .done := by
    intro same
    cases same
  have renders := renders_print inQuotes some'
  have unmasked : Unmasked inspectedRule := by
    unfold Unmasked
    decide
  have accepted := (apart _).accepted inQuotes _ renders some' unmasked
  have restorable := (renders.accepts_iff inQuotes some').mp accepted
  have named := restorable.heads (.of "set" (by decide) rfl) (by
    simp [inspectedRule, Boot.heads])
  exact named.1 rfl

end QuartzFire.Guard
