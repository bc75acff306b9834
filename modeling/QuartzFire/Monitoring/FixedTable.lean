import QuartzFire.Firewall.Parse
import QuartzFire.Foundation.Columns

/-!
# Tables of operational commands

The commands print their tables in columns of a fixed width.  The columns are
found again from the header line, or from the dashes under it, and the rows are
cut at the same places.
-/

namespace QuartzFire.Monitoring

open Columns

/-! ## Tables under a header -/

structure OpTable where
  headers : List (List Char)
  rows : List (List (List Char))
  deriving DecidableEq

/-- Whether a field can begin behind these characters, the last one first. -/
def mayBegin : List Char → Bool
  | [] => true
  | [last] => last == ' '
  | last :: previous :: _ => last == ' ' && previous == ' '

/-- Where fields begin in the rest of a line. -/
def fieldStarts (before : List Char) : List Char → List Nat
  | [] => []
  | char :: rest =>
      let later := fieldStarts (char :: before) rest
      if char != ' ' && mayBegin before then before.length :: later else later

/-- What a separator rule line consists of. -/
def isRuleChar (char : Char) : Bool :=
  Firewall.isSpace char || ['-', '=', '_', '+', '|'].any (· == char)

def isHeader (lower : List Char → List Char) (keyword line : List Char) : Bool :=
  !(trimBy Firewall.isSpace line).isEmpty && containsText (lower keyword) (lower line)

/-- Neither a blank line nor a separator rule line. -/
def isRow (line : List Char) : Bool :=
  !(trimBy Firewall.isSpace line).isEmpty && !(!line.isEmpty && line.all isRuleChar)

def parseFixedTable (lower : List Char → List Char)
    (text keyword : List Char) : OpTable :=
  let lines := (text.filter (· != '\r')).splitOn '\n'
  match lines.dropWhile fun line => !isHeader lower keyword line with
  | [] => ⟨[], []⟩
  | header :: rest =>
      let starts := fieldStarts [] header
      if starts.isEmpty then ⟨[], []⟩ else
      ⟨cellsOf Firewall.isSpace header starts,
        (rest.filter isRow).map fun line => cellsOf Firewall.isSpace line starts⟩

/-! ## Leases -/

structure DhcpLease where
  ipAddress : List Char
  macAddress : Option (List Char)
  state : Option (List Char)
  leaseStart : Option (List Char)
  leaseExpiration : Option (List Char)
  remaining : Option (List Char)
  pool : Option (List Char)
  hostname : Option (List Char)
  deriving DecidableEq

/-- The dashed separator line. -/
def isSeparator (line : List Char) : Bool :=
  let trimmed := trimBy Firewall.isSpace line
  !trimmed.isEmpty && trimmed.all (fun char => char == '-' || char == ' ') &&
    trimmed.any (· == '-')

/-- Where runs of dashes begin; `inside` one already or not. -/
def dashStarts (inside : Bool) (index : Nat) : List Char → List Nat
  | [] => []
  | char :: rest =>
      let later := dashStarts (char == '-') (index + 1) rest
      if char == '-' && !inside then index :: later else later

/-- `opt`: an empty field is none. -/
def optField (cells : List (List Char)) (col : Option Nat) :
    Option (List Char) :=
  col.bind fun index =>
    let value := cells.getD index []
    if value.isEmpty then none else some value

def isAddressLabel (label : List Char) : Bool :=
  containsText "ip".toList label && containsText "address".toList label

/-- The lease of a line's fields, under the labels of the columns. -/
def leaseOf (labels cells : List (List Char)) : Option DhcpLease :=
  let find := fun needle : String =>
    labels.findIdx? (containsText needle.toList)
  (optField cells (labels.findIdx? isAddressLabel)).map fun address =>
    { ipAddress := address
      macAddress := optField cells (find "mac")
      state := optField cells (find "state")
      leaseStart := optField cells (find "start")
      leaseExpiration := optField cells (find "expir")
      remaining := optField cells (find "remain")
      pool := optField cells (find "pool")
      hostname := optField cells (find "hostname") }

def parseLeases (lower : List Char → List Char) (text : List Char) :
    List DhcpLease :=
  let lines := text.splitOn '\n'
  match lines.findIdx? isSeparator with
  | some (above + 1) =>
      let starts := dashStarts false 0 (lines.getD (above + 1) [])
      if starts.isEmpty then [] else
      let labels := (cellsOf Firewall.isSpace (lines.getD above []) starts).map lower
      ((lines.drop (above + 2)).filter fun line =>
        !(trimBy Firewall.isSpace line).isEmpty).filterMap fun line =>
          leaseOf labels (cellsOf Firewall.isSpace line starts)
  | _ => []

/-! ## Tables as they are printed -/

/-- A text that can stand in a column: no line break, no blank around it and no
two spaces in a row. -/
structure IsCell (cell : List Char) : Prop where
  one_line : '\n' ∉ cell ∧ '\r' ∉ cell
  trimmed : trimBy Firewall.isSpace cell = cell
  apart : cell.IsChain fun first second => ¬ (first = ' ' ∧ second = ' ')

instance (cell : List Char) : Decidable (IsCell cell) :=
  decidable_of_iff (('\n' ∉ cell ∧ '\r' ∉ cell) ∧ trimBy Firewall.isSpace cell = cell ∧
      cell.IsChain fun first second => ¬ (first = ' ' ∧ second = ' '))
    ⟨fun parts => ⟨parts.1, parts.2.1, parts.2.2⟩,
      fun cell => ⟨cell.one_line, cell.trimmed, cell.apart⟩⟩

def dashes (counts : List Nat) : List (List Char) :=
  counts.map fun count => List.replicate count '-'

/-- Lines of text, and under them a header, maybe a dashed rule, and rows.  The
width of a column has at least two spaces behind each cell. -/
structure TextTable where
  titles : List (List Char)
  widths : List Nat
  headers : List (List Char)
  rule : Option (List Nat)
  rows : List (List (List Char))
  title_lines : ∀ title ∈ titles, '\n' ∉ title ∧ '\r' ∉ title
  headers_fit : Fits 2 widths headers
  header_cells : ∀ header ∈ headers, IsCell header ∧ header ≠ []
  rule_fits : ∀ counts ∈ rule,
    Fits 2 widths (dashes counts) ∧ ∀ count ∈ counts, count ≠ 0
  rows_fit : ∀ row ∈ rows, Fits 2 widths row
  row_cells : ∀ row ∈ rows, ∀ cell ∈ row, IsCell cell

namespace TextTable

/-- What stands under the header. -/
def below (table : TextTable) : List (List (List Char)) :=
  (table.rule.map dashes).toList ++ table.rows

/-- The entry of a row under the first header of that name. -/
def entry (table : TextTable) (lower : List Char → List Char)
    (named : List Char → Bool) (row : List (List Char)) : Option (List Char) :=
  ((table.headers.zip row).find? fun pair => named (lower pair.1)).bind
    fun pair => if pair.2 = [] then none else some pair.2

/-- The lease of a row that has an address. -/
def lease (table : TextTable) (lower : List Char → List Char)
    (row : List (List Char)) : Option DhcpLease :=
  let under := fun needle : String =>
    table.entry lower (containsText needle.toList) row
  (table.entry lower isAddressLabel row).map fun address =>
    { ipAddress := address
      macAddress := under "mac"
      state := under "state"
      leaseStart := under "start"
      leaseExpiration := under "expir"
      remaining := under "remain"
      pool := under "pool"
      hostname := under "hostname" }

/-- One lease for each row that has an address. -/
def leases (table : TextTable) (lower : List Char → List Char) :
    List DhcpLease :=
  table.rows.filterMap (table.lease lower)

end TextTable

/-- A table as a text: spaces at the ends of its lines may be missing, and
empty lines may follow. -/
structure Printout (table : TextTable) where
  header : List Char
  body : List (List Char)
  ends : Nat
  header_agrees : Agrees ' ' header (layout ' ' table.widths table.headers)
  body_agrees : List.Forall₂ (Agrees ' ') body
    (table.below.map (layout ' ' table.widths))

namespace Printout

variable {table : TextTable} (out : Printout table)

def lines : List (List Char) :=
  table.titles ++ out.header :: (out.body ++ List.replicate out.ends [])

def text : List Char := ['\n'].intercalate out.lines

/-- No line above the rows is a dashed rule, but for the one under the
header. -/
def Titled : Prop :=
  isSeparator out.header = false ∧
    ∀ title ∈ table.titles, isSeparator title = false

/-- All cells are read, and the leases where they are told by a rule. -/
structure ReadsBack (lower : List Char → List Char) (keyword : List Char) :
    Prop where
  cells : parseFixedTable lower out.text keyword = ⟨table.headers, table.rows⟩
  leases : out.Titled → parseLeases lower out.text = table.leases lower

end Printout

/-- Each row has something else than rules and blanks, and leases have a rule
above them. -/
structure Readable (table : TextTable) (lower : List Char → List Char)
    (titled : Prop) : Prop where
  rows : ∀ row ∈ table.rows, ∃ cell ∈ row, ∃ char ∈ cell,
    isRuleChar char = false
  ruled : titled → table.rule = none →
    ∀ row ∈ table.rows, table.entry lower isAddressLabel row = none

/-! ## Where the columns begin -/

theorem fieldStarts_spaces (before : List Char) (count : Nat)
    (rest : List Char) :
    fieldStarts before (List.replicate count ' ' ++ rest) =
      fieldStarts (List.replicate count ' ' ++ before) rest := by
  induction count generalizing before with
  | zero => rfl
  | succ count ih =>
      rw [List.replicate_succ, List.cons_append, fieldStarts]
      have skipped := ih (' ' :: before)
      rw [List.append_cons, ← List.replicate_succ',
        List.replicate_succ] at skipped
      simpa using skipped

theorem fieldStarts_append_spaces (before line : List Char) (count : Nat) :
    fieldStarts before (line ++ List.replicate count ' ') =
      fieldStarts before line := by
  induction line generalizing before with
  | nil =>
      have spaces := fieldStarts_spaces before count []
      rw [List.append_nil] at spaces
      exact spaces
  | cons char rest ih => rw [List.cons_append, fieldStarts, fieldStarts, ih]

/-- Inside a cell no field begins. -/
theorem fieldStarts_inside {last : Char} {before text rest : List Char}
    (apart : (last :: text).IsChain
      fun first second => ¬ (first = ' ' ∧ second = ' '))
    (inside : last ≠ ' ' ∨ ∃ previous, before.head? = some previous ∧
      previous ≠ ' ') :
    fieldStarts (last :: before) (text ++ rest) =
      fieldStarts (text.reverse ++ last :: before) rest := by
  induction text generalizing last before with
  | nil => rfl
  | cons char text ih =>
      have shut : mayBegin (last :: before) = false := by
        cases before with
        | nil =>
            rcases inside with dark | ⟨_, none, _⟩
            · exact beq_false_of_ne dark
            · cases none
        | cons previous before =>
            rcases inside with dark | ⟨_, same, dark⟩
            · simp [mayBegin, dark]
            · cases same
              simp [mayBegin, dark]
      rw [List.isChain_cons_cons] at apart
      have next : char ≠ ' ' ∨ ∃ previous, (last :: before).head? =
          some previous ∧ previous ≠ ' ' := by
        by_cases blank : char = ' '
        · exact .inr ⟨last, rfl, fun same => apart.1 ⟨same, blank⟩⟩
        · exact .inl blank
      rw [List.cons_append, fieldStarts, shut, Bool.and_false,
        if_neg Bool.false_ne_true, ih apart.2 next, List.reverse_cons,
        List.append_assoc]
      rfl

theorem IsCell.head_ne_space {char : Char} {rest : List Char}
    (cell : IsCell (char :: rest)) : char ≠ ' ' := by
  rintro rfl
  exact absurd (head_of_trimBy cell.trimmed ' ' rfl) (by decide)

theorem fieldStarts_cell {before cell : List Char} (isCell : IsCell cell)
    (nonempty : cell ≠ []) (may : mayBegin before = true) (rest : List Char) :
    fieldStarts before (cell ++ rest) =
      before.length :: fieldStarts (cell.reverse ++ before) rest := by
  cases cell with
  | nil => exact absurd rfl nonempty
  | cons char text =>
      have dark := isCell.head_ne_space
      rw [List.cons_append, fieldStarts, may, Bool.and_true,
        if_pos (bne_iff_ne.mpr dark),
        fieldStarts_inside isCell.apart (.inl dark), List.reverse_cons,
        List.append_assoc]
      rfl

theorem mayBegin_spaces {count : Nat} (two : 2 ≤ count) (before : List Char) :
    mayBegin (List.replicate count ' ' ++ before) = true := by
  obtain ⟨more, rfl⟩ := Nat.exists_eq_add_of_le' two
  rw [List.replicate_succ, List.replicate_succ]
  rfl

/-- The header tells where the columns begin. -/
theorem fieldStarts_layout {widths : List Nat} {headers : List (List Char)}
    (fits : Fits 2 widths headers)
    (cells : ∀ header ∈ headers, IsCell header ∧ header ≠ [])
    {before : List Char} (may : mayBegin before = true) :
    fieldStarts before (layout ' ' widths headers) =
      offsets before.length widths := by
  induction widths generalizing headers before with
  | nil =>
      match headers, fits with
      | [header], _ =>
          obtain ⟨isCell, nonempty⟩ := cells header List.mem_cons_self
          have start := fieldStarts_cell isCell nonempty may []
          rw [List.append_nil] at start
          exact start
  | cons width widths ih =>
      match headers, fits with
      | header :: headers, ⟨narrow, later⟩ =>
          rw [List.forall_mem_cons] at cells
          have next := @ih headers later cells.2 (List.replicate
            (width - header.length) ' ' ++ (header.reverse ++ before))
            (mayBegin_spaces (by omega) _)
          have reached : (List.replicate (width - header.length) ' ' ++
              (header.reverse ++ before)).length = before.length + width := by
            simp only [List.length_append, List.length_replicate,
              List.length_reverse]
            omega
          rw [layout, pad, List.append_assoc, fieldStarts_cell cells.1.1
            cells.1.2 may, fieldStarts_spaces, next, reached, offsets]

theorem dashStarts_append_spaces (inside : Bool) (index : Nat)
    (line : List Char) (count : Nat) :
    dashStarts inside index (line ++ List.replicate count ' ') =
      dashStarts inside index line := by
  induction line generalizing inside index with
  | nil =>
      induction count generalizing inside index with
      | zero => rfl
      | succ count ih =>
          rw [List.replicate_succ, List.nil_append, dashStarts]
          exact ih false (index + 1)
  | cons char rest ih => rw [List.cons_append, dashStarts, dashStarts, ih]

theorem dashStarts_spaces {count : Nat} (some' : count ≠ 0) (inside : Bool)
    (index : Nat) (rest : List Char) :
    dashStarts inside index (List.replicate count ' ' ++ rest) =
      dashStarts false (index + count) rest := by
  induction count generalizing inside index with
  | zero => exact absurd rfl some'
  | succ count ih =>
      rw [List.replicate_succ, List.cons_append, dashStarts]
      change dashStarts false (index + 1) _ = _
      cases count with
      | zero => rfl
      | succ count =>
          rw [ih (Nat.succ_ne_zero count), Nat.add_assoc,
            Nat.add_comm 1 (count + 1)]

theorem dashStarts_inside (count index : Nat) (rest : List Char) :
    dashStarts true index (List.replicate count '-' ++ rest) =
      dashStarts true (index + count) rest := by
  induction count generalizing index with
  | zero => rfl
  | succ count ih =>
      rw [List.replicate_succ, List.cons_append, dashStarts]
      change dashStarts true (index + 1) _ = _
      rw [ih, Nat.add_assoc, Nat.add_comm 1 count]

theorem dashStarts_dashes {count : Nat} (some' : count ≠ 0) (index : Nat)
    (rest : List Char) :
    dashStarts false index (List.replicate count '-' ++ rest) =
      index :: dashStarts true (index + count) rest := by
  cases count with
  | zero => exact absurd rfl some'
  | succ count =>
      rw [List.replicate_succ, List.cons_append, dashStarts]
      change index :: dashStarts true (index + 1) _ = _
      rw [dashStarts_inside, Nat.add_assoc, Nat.add_comm 1 count]

/-- So does the rule under it. -/
theorem dashStarts_layout {widths counts : List Nat}
    (fits : Fits 2 widths (dashes counts))
    (solid : ∀ count ∈ counts, count ≠ 0) (index : Nat) :
    dashStarts false index (layout ' ' widths (dashes counts)) =
      offsets index widths := by
  induction widths generalizing counts index with
  | nil =>
      match counts, fits with
      | [count], _ =>
          have start := dashStarts_dashes (solid count List.mem_cons_self)
            index []
          rw [List.append_nil] at start
          exact start
  | cons width widths ih =>
      match counts, fits with
      | count :: counts, ⟨narrow, later⟩ =>
          rw [List.length_replicate] at narrow
          rw [List.forall_mem_cons] at solid
          have gap : width - count ≠ 0 := by omega
          have reached : index + count + (width - count) = index + width := by
            omega
          change dashStarts false index (pad ' ' width
            (List.replicate count '-') ++ layout ' ' widths (dashes counts)) = _
          rw [pad, List.length_replicate, List.append_assoc,
            dashStarts_dashes solid.1, dashStarts_spaces gap, reached,
            ih later solid.2, offsets]

/-! ## Lines and rows -/

theorem isRow_iff {line : List Char} :
    isRow line = true ↔ ∃ char ∈ line, isRuleChar char = false := by
  have blank : ∀ char, isRuleChar char = false → Firewall.isSpace char = false :=
    fun char other => (Bool.or_eq_false_iff.mp other).1
  rw [isRow, Bool.and_eq_true, Bool.not_eq_true', Bool.not_eq_true',
    List.isEmpty_eq_false_iff]
  constructor
  · rintro ⟨nonempty, other⟩
    have some' : line ≠ [] := by
      rintro rfl
      exact nonempty rfl
    have filled : line.isEmpty = false := List.isEmpty_eq_false_iff.mpr some'
    rw [filled, Bool.not_false, Bool.true_and, List.all_eq_false] at other
    obtain ⟨char, member, plain⟩ := other
    exact ⟨char, member, Bool.eq_false_iff.mpr plain⟩
  · rintro ⟨char, member, other⟩
    constructor
    · intro empty
      have covered := trimBy_eq_nil.mp empty char member
      rw [blank char other] at covered
      cases covered
    · rw [Bool.and_eq_false_iff]
      refine .inr (List.all_eq_false.mpr ⟨char, member, ?_⟩)
      rw [other]
      exact Bool.false_ne_true

/-- The row has something else than rules and blanks. -/
def hasText (row : List (List Char)) : Bool :=
  row.any fun cell => cell.any fun char => !isRuleChar char

theorem hasText_iff {row : List (List Char)} : hasText row = true ↔
    ∃ cell ∈ row, ∃ char ∈ cell, isRuleChar char = false := by
  simp only [hasText, List.any_eq_true, Bool.not_eq_true']

theorem ne_space_of_not_ruleChar {char : Char}
    (other : isRuleChar char = false) : char ≠ ' ' := by
  rintro rfl
  exact absurd other (by decide)

theorem isRow_layout {widths : List Nat} {row : List (List Char)}
    (fits : Fits 2 widths row) {line : List Char}
    (agrees : Agrees ' ' line (layout ' ' widths row)) :
    isRow line = hasText row := by
  rw [Bool.eq_iff_iff, isRow_iff, hasText_iff]
  constructor
  · rintro ⟨char, member, other⟩
    have dark := ne_space_of_not_ruleChar other
    obtain ⟨cell, inside, there⟩ :=
      (mem_layout fits dark).mp ((agrees.mem_iff dark).mp member)
    exact ⟨cell, inside, char, there, other⟩
  · rintro ⟨cell, inside, char, there, other⟩
    have dark := ne_space_of_not_ruleChar other
    exact ⟨char, (agrees.mem_iff dark).mpr
      ((mem_layout fits dark).mpr ⟨cell, inside, there⟩), other⟩

theorem hasText_dashes (counts : List Nat) : hasText (dashes counts) = false := by
  rw [Bool.eq_false_iff]
  intro found
  obtain ⟨cell, inside, char, there, other⟩ := hasText_iff.mp found
  obtain ⟨count, -, rfl⟩ := List.mem_map.mp inside
  rw [List.eq_of_mem_replicate there] at other
  exact absurd other (by decide)

namespace TextTable

variable {table : TextTable}

/-- A line under the header: a rule or a row. -/
theorem below_fits {cells : List (List Char)} (member : cells ∈ table.below) :
    Fits 2 table.widths cells ∧ ∀ cell ∈ cells,
      trimBy Firewall.isSpace cell = cell ∧ '\n' ∉ cell ∧ '\r' ∉ cell := by
  rcases List.mem_append.mp member with rule | row
  · obtain ⟨counts, ruled, rfl⟩ :=
      Option.map_eq_some_iff.mp (Option.mem_toList.mp rule)
    refine ⟨(table.rule_fits counts ruled).1, fun cell inside => ?_⟩
    obtain ⟨count, -, rfl⟩ := List.mem_map.mp inside
    have dash : ∀ char ∈ List.replicate count '-', char = '-' :=
      fun char there => List.eq_of_mem_replicate there
    refine ⟨trimBy_of_ends (fun char first => ?_) (fun char last => ?_),
      fun there => absurd (dash _ there) (by decide),
      fun there => absurd (dash _ there) (by decide)⟩
    · rw [dash char (List.mem_of_mem_head? first)]
      decide
    · rw [dash char (List.mem_of_getLast? last)]
      decide
  · refine ⟨table.rows_fit cells row, fun cell inside => ?_⟩
    have isCell := table.row_cells cells row cell inside
    exact ⟨isCell.trimmed, isCell.one_line⟩

end TextTable

namespace Printout

variable {table : TextTable} (out : Printout table)

theorem exists_of_forall₂ {Left Right : Type*} {related : Left → Right → Prop}
    {left : List Left} {right : List Right}
    (pairs : List.Forall₂ related left right) {item : Left}
    (member : item ∈ left) : ∃ other ∈ right, related item other := by
  induction pairs with
  | nil => cases member
  | cons first _ ih =>
      rcases List.mem_cons.mp member with rfl | later
      · exact ⟨_, List.mem_cons_self, first⟩
      · obtain ⟨other, inside, same⟩ := ih later
        exact ⟨other, List.mem_cons_of_mem _ inside, same⟩

theorem body_member {line : List Char} (member : line ∈ out.body) :
    ∃ cells ∈ table.below, Agrees ' ' line (layout ' ' table.widths cells) := by
  obtain ⟨full, inside, agrees⟩ := exists_of_forall₂ out.body_agrees member
  obtain ⟨cells, there, rfl⟩ := List.mem_map.mp inside
  exact ⟨cells, there, agrees⟩

theorem break_not_mem {char : Char} (break' : char = '\n' ∨ char = '\r') :
    ∀ line ∈ out.lines, char ∉ line := by
  have dark : char ≠ ' ' := by
    rintro rfl
    rcases break' with same | same <;> exact absurd same (by decide)
  have laid : ∀ {cells : List (List Char)} {line : List Char},
      Fits 2 table.widths cells →
      (∀ cell ∈ cells, '\n' ∉ cell ∧ '\r' ∉ cell) →
      Agrees ' ' line (layout ' ' table.widths cells) → char ∉ line := by
    intro cells line fits plain agrees member
    obtain ⟨cell, inside, there⟩ :=
      (mem_layout fits dark).mp ((agrees.mem_iff dark).mp member)
    rcases break' with rfl | rfl
    · exact (plain cell inside).1 there
    · exact (plain cell inside).2 there
  intro line member
  rcases List.mem_append.mp member with title | later
  · rcases break' with rfl | rfl
    · exact (table.title_lines line title).1
    · exact (table.title_lines line title).2
  rcases List.mem_cons.mp later with rfl | later
  · exact laid table.headers_fit
      (fun cell inside => (table.header_cells cell inside).1.one_line)
      out.header_agrees
  rcases List.mem_append.mp later with body | empty
  · obtain ⟨cells, inside, agrees⟩ := out.body_member body
    have fits := TextTable.below_fits inside
    exact laid fits.1 (fun cell there => (fits.2 cell there).2) agrees
  · rw [List.eq_of_mem_replicate empty]
    exact List.not_mem_nil

theorem mem_joined {lines : List (List Char)} {char : Char}
    (member : char ∈ ['\n'].intercalate lines) :
    char = '\n' ∨ ∃ line ∈ lines, char ∈ line := by
  induction lines with
  | nil => cases member
  | cons line rest ih =>
      by_cases last : rest = []
      · subst last
        rw [List.intercalate_singleton] at member
        exact .inr ⟨line, List.mem_cons_self, member⟩
      · rw [List.intercalate_cons_of_ne_nil last, List.append_assoc] at member
        rcases List.mem_append.mp member with inside | later
        · exact .inr ⟨line, List.mem_cons_self, inside⟩
        · rcases List.mem_cons.mp later with same | later
          · exact .inl same
          · rcases ih later with same | ⟨other, there, inside⟩
            · exact .inl same
            · exact .inr ⟨other, List.mem_cons_of_mem _ there, inside⟩

theorem text_lines : out.text.splitOn '\n' = out.lines := by
  apply List.splitOn_intercalate
  · exact out.break_not_mem (.inl rfl)
  · simp [lines]

theorem filter_text : out.text.filter (· != '\r') = out.text := by
  rw [List.filter_eq_self]
  intro char member
  rw [bne_iff_ne]
  rintro rfl
  rcases mem_joined member with same | ⟨line, inside, there⟩
  · exact absurd same (by decide)
  · exact out.break_not_mem (.inr rfl) line inside there

/-! ## Reading the cells -/

/-- What is read of the lines under the header. -/
theorem cellsOf_below {lines : List (List Char)}
    {below : List (List (List Char))}
    (agrees : List.Forall₂ (Agrees ' ') lines
      (below.map (layout ' ' table.widths)))
    (fits : ∀ cells ∈ below, Fits 2 table.widths cells ∧
      ∀ cell ∈ cells, trimBy Firewall.isSpace cell = cell) :
    (lines.filter isRow).map
        (fun line => cellsOf Firewall.isSpace line (offsets 0 table.widths)) =
      below.filter hasText := by
  induction below generalizing lines with
  | nil =>
      cases agrees
      rfl
  | cons cells below ih =>
      cases agrees with
      | cons first later =>
          rw [List.forall_mem_cons] at fits
          have same := isRow_layout fits.1.1 first
          have read := cellsOf_layout (by decide) fits.1.1 fits.1.2 first
          rw [List.filter_cons, List.filter_cons, same]
          split
          · rw [List.map_cons, read, ih later fits.2]
          · exact ih later fits.2

theorem isHeader_header {lower : List Char → List Char} {keyword : List Char}
    (named : containsText (lower keyword) (lower out.header) = true) :
    isHeader lower keyword out.header = true := by
  obtain ⟨header, headers, whole⟩ : ∃ header headers,
      table.headers = header :: headers := by
    refine List.exists_cons_of_ne_nil fun none => ?_
    have count := table.headers_fit.length_eq
    rw [none] at count
    cases count
  have inside : header ∈ table.headers := whole ▸ List.mem_cons_self
  obtain ⟨isCell, nonempty⟩ := table.header_cells header inside
  obtain ⟨char, rest, rfl⟩ := List.exists_cons_of_ne_nil nonempty
  have dark := head_of_trimBy isCell.trimmed char rfl
  have member : char ∈ out.header :=
    (out.header_agrees.mem_iff isCell.head_ne_space).mpr
      ((mem_layout table.headers_fit isCell.head_ne_space).mpr
        ⟨_, inside, List.mem_cons_self⟩)
  rw [isHeader, named, Bool.and_true, Bool.not_eq_true',
    List.isEmpty_eq_false_iff]
  intro empty
  rw [trimBy_eq_nil.mp empty char member] at dark
  cases dark

theorem parseFixedTable_text {lower : List Char → List Char}
    {keyword : List Char}
    (named : containsText (lower keyword) (lower out.header) = true)
    (untitled : ∀ title ∈ table.titles, isHeader lower keyword title = false) :
    parseFixedTable lower out.text keyword =
      ⟨table.headers, table.rows.filter hasText⟩ := by
  have found : out.lines.dropWhile (fun line => !isHeader lower keyword line) =
      out.header :: (out.body ++ List.replicate out.ends []) := by
    rw [lines, List.dropWhile_append_of_pos]
    · rw [List.dropWhile_cons_of_neg]
      rw [out.isHeader_header named]
      exact Bool.false_ne_true
    · intro title member
      rw [untitled title member]
      rfl
  have starts : fieldStarts [] out.header = offsets 0 table.widths := by
    obtain ⟨more, fewer, same⟩ := out.header_agrees
    rw [← fieldStarts_append_spaces _ _ more, same, fieldStarts_append_spaces]
    exact fieldStarts_layout table.headers_fit table.header_cells rfl
  have some' : (offsets 0 table.widths).isEmpty = false := by
    obtain ⟨later, begins⟩ := offsets_eq_cons 0 table.widths
    rw [begins]
    rfl
  have headers : cellsOf Firewall.isSpace out.header (offsets 0 table.widths) =
      table.headers :=
    cellsOf_layout (by decide) table.headers_fit
      (fun header member => (table.header_cells header member).1.trimmed)
      out.header_agrees
  have rows : ((out.body ++ List.replicate out.ends []).filter isRow).map
      (fun line => cellsOf Firewall.isSpace line (offsets 0 table.widths)) =
      table.rows.filter hasText := by
    have empty : (List.replicate out.ends []).filter isRow = [] := by
      refine List.filter_eq_nil_iff.mpr fun line member => ?_
      rw [List.eq_of_mem_replicate member]
      decide
    rw [List.filter_append, empty, List.append_nil,
      cellsOf_below out.body_agrees fun cells member =>
        ⟨(TextTable.below_fits member).1, fun cell inside =>
          ((TextTable.below_fits member).2 cell inside).1⟩,
      TextTable.below, List.filter_append]
    have ruled : (table.rule.map dashes).toList.filter hasText = [] := by
      refine List.filter_eq_nil_iff.mpr fun cells member => ?_
      obtain ⟨counts, -, rfl⟩ :=
        Option.map_eq_some_iff.mp (Option.mem_toList.mp member)
      rw [hasText_dashes]
      exact Bool.false_ne_true
    rw [ruled, List.nil_append]
  unfold parseFixedTable
  rw [out.filter_text, out.text_lines]
  simp only [found, starts, some', headers, rows, if_neg Bool.false_ne_true]

theorem cells_iff {lower : List Char → List Char} {keyword : List Char}
    (named : containsText (lower keyword) (lower out.header) = true)
    (untitled : ∀ title ∈ table.titles, isHeader lower keyword title = false) :
    parseFixedTable lower out.text keyword = ⟨table.headers, table.rows⟩ ↔
      ∀ row ∈ table.rows, ∃ cell ∈ row, ∃ char ∈ cell,
        isRuleChar char = false := by
  rw [out.parseFixedTable_text named untitled, OpTable.mk.injEq,
    and_iff_right rfl, List.filter_eq_self]
  exact forall₂_congr fun row _ => hasText_iff

end Printout

/-! ## Reading the leases -/

/-- A line without a rule's dash, or with something else, is no separator. -/
theorem isRow_of_isSeparator {line : List Char}
    (separates : isSeparator line = true) : isRow line = false := by
  rw [Bool.eq_false_iff]
  intro row
  obtain ⟨char, member, other⟩ := isRow_iff.mp row
  have dark : Firewall.isSpace char = false := (Bool.or_eq_false_iff.mp other).1
  simp only [isSeparator, Bool.and_eq_true, List.all_eq_true] at separates
  have plain := separates.1.2 char ((mem_trimBy dark).mpr member)
  rw [Bool.or_eq_true, beq_iff_eq, beq_iff_eq] at plain
  rcases plain with rfl | rfl <;> exact absurd other (by decide)

theorem isSeparator_dashes {widths counts : List Nat}
    (fits : Fits 2 widths (dashes counts))
    (solid : ∀ count ∈ counts, count ≠ 0) {line : List Char}
    (agrees : Agrees ' ' line (layout ' ' widths (dashes counts))) :
    isSeparator line = true := by
  have dash : '-' ∈ line := by
    refine (agrees.mem_iff (by decide)).mpr ((mem_layout fits (by decide)).mpr ?_)
    obtain ⟨count, rest, rfl⟩ : ∃ count rest, counts = count :: rest := by
      refine List.exists_cons_of_ne_nil ?_
      rintro rfl
      cases fits.length_eq
    refine ⟨_, List.mem_cons_self, List.mem_replicate.mpr ⟨?_, rfl⟩⟩
    exact solid count List.mem_cons_self
  have inside : '-' ∈ trimBy Firewall.isSpace line := (mem_trimBy (by decide)).mpr dash
  have only : ∀ char ∈ trimBy Firewall.isSpace line, char = '-' ∨ char = ' ' := by
    intro char member
    by_cases space : char = ' '
    · exact .inr space
    · obtain ⟨cell, there, within⟩ := (mem_layout fits space).mp
        ((agrees.mem_iff space).mp (mem_of_mem_trimBy member))
      obtain ⟨count, -, rfl⟩ := List.mem_map.mp there
      exact .inl (List.eq_of_mem_replicate within)
  simp only [isSeparator, Bool.and_eq_true, Bool.not_eq_true',
    List.isEmpty_eq_false_iff, List.all_eq_true, List.any_eq_true,
    Bool.or_eq_true, beq_iff_eq]
  exact ⟨⟨List.ne_nil_of_mem inside, only⟩, '-', inside, rfl⟩

theorem optField_eq {lower : List Char → List Char} {named : List Char → Bool}
    {headers row : List (List Char)} (same : headers.length = row.length) :
    optField row ((headers.map lower).findIdx? named) =
      ((headers.zip row).find? fun pair => named (lower pair.1)).bind
        fun pair => if pair.2 = [] then none else some pair.2 := by
  induction headers generalizing row with
  | nil => rfl
  | cons header headers ih =>
      cases row with
      | nil => cases same
      | cons cell row =>
          have later := ih (Nat.succ.inj same)
          rw [List.map_cons, List.findIdx?_cons, List.zip_cons_cons,
            List.find?_cons]
          cases named (lower header) with
          | true => cases cell <;> rfl
          | false =>
              rw [← later]
              cases (headers.map lower).findIdx? named <;> rfl

theorem optField_of_empty {cells : List (List Char)}
    (empty : ∀ cell ∈ cells, cell = []) (col : Option Nat) :
    optField cells col = none := by
  cases col with
  | none => rfl
  | some index =>
      have nothing : cells.getD index [] = [] := by
        rw [List.getD_eq_getElem?_getD]
        cases there : cells[index]? with
        | none => rfl
        | some cell => exact empty cell (List.mem_of_getElem? there)
      change (if (cells.getD index []).isEmpty then none else _) = none
      rw [nothing]
      rfl

theorem filterMap_filter_of_none {Line Item : Type*} {read : Line → Option Item}
    {keep : Line → Bool} {lines : List Line}
    (drops : ∀ line ∈ lines, keep line = false → read line = none) :
    (lines.filter keep).filterMap read = lines.filterMap read := by
  induction lines with
  | nil => rfl
  | cons line rest ih =>
      rw [List.forall_mem_cons] at drops
      rw [List.filter_cons, List.filterMap_cons]
      split
      · rw [List.filterMap_cons, ih drops.2]
      · rename_i dropped
        rw [drops.1 (Bool.eq_false_iff.mpr dropped), ih drops.2]

theorem TextTable.leaseOf_eq {table : TextTable}
    {lower : List Char → List Char} {row : List (List Char)}
    (member : row ∈ table.rows) :
    leaseOf (table.headers.map lower) row = table.lease lower row := by
  have same : table.headers.length = row.length := by
    rw [table.headers_fit.length_eq, (table.rows_fit row member).length_eq]
  simp only [leaseOf, TextTable.lease, TextTable.entry, optField_eq same]

theorem leaseOf_of_empty {labels cells : List (List Char)}
    (empty : ∀ cell ∈ cells, cell = []) : leaseOf labels cells = none := by
  rw [leaseOf]
  exact Option.map_eq_none_iff.mpr (optField_of_empty empty _)

namespace Printout

variable {table : TextTable} (out : Printout table)
  {lower : List Char → List Char}

theorem leases_of_rows {lines : List (List Char)}
    {rows : List (List (List Char))} (inside : ∀ row ∈ rows, row ∈ table.rows)
    (agrees : List.Forall₂ (Agrees ' ') lines
      (rows.map (layout ' ' table.widths))) :
    lines.filterMap (fun line => leaseOf (table.headers.map lower)
        (cellsOf Firewall.isSpace line (offsets 0 table.widths))) =
      rows.filterMap (table.lease lower) := by
  induction rows generalizing lines with
  | nil =>
      cases agrees
      rfl
  | cons row rows ih =>
      cases agrees with
      | cons first later =>
          rw [List.forall_mem_cons] at inside
          have read := cellsOf_layout (by decide)
            (table.rows_fit row inside.1)
            (fun cell there => (table.row_cells row inside.1 cell there).trimmed)
            first
          rw [List.filterMap_cons, List.filterMap_cons, read,
            TextTable.leaseOf_eq inside.1, ih inside.2 later]

/-- Under a rule each row with an address is a lease. -/
theorem parseLeases_ruled (titled : out.Titled) {counts : List Nat}
    (ruled : table.rule = some counts) :
    parseLeases lower out.text = table.leases lower := by
  obtain ⟨rule, rows, whole, ruleAgrees, rowsAgree⟩ : ∃ rule rows,
      out.body = rule :: rows ∧
      Agrees ' ' rule (layout ' ' table.widths (dashes counts)) ∧
      List.Forall₂ (Agrees ' ') rows
        (table.rows.map (layout ' ' table.widths)) := by
    have agrees := out.body_agrees
    rw [TextTable.below, ruled] at agrees
    cases body : out.body with
    | nil =>
        rw [body] at agrees
        cases agrees
    | cons rule rows =>
        rw [body] at agrees
        cases agrees with
        | cons first later => exact ⟨rule, rows, rfl, first, later⟩
  obtain ⟨fits, solid⟩ := table.rule_fits counts ruled
  have separates := isSeparator_dashes fits solid ruleAgrees
  have lines : out.lines = table.titles ++ out.header :: rule ::
      (rows ++ List.replicate out.ends []) := by
    rw [Printout.lines, whole, List.cons_append]
  have place : out.lines.findIdx? isSeparator =
      some (table.titles.length + 1) := by
    have none : table.titles.findIdx? isSeparator = none :=
      List.findIdx?_eq_none_iff.mpr titled.2
    rw [lines, List.findIdx?_append, none, List.findIdx?_cons, titled.1,
      List.findIdx?_cons, separates]
    simp [Nat.add_comm]
  have above : out.lines.getD table.titles.length [] = out.header := by
    simp [lines]
  have below : out.lines.getD (table.titles.length + 1) [] = rule := by
    simp [lines]
  have rest : out.lines.drop (table.titles.length + 2) =
      rows ++ List.replicate out.ends [] := by
    simp [lines, List.drop_append]
  have starts : dashStarts false 0 rule = offsets 0 table.widths := by
    obtain ⟨more, fewer, same⟩ := ruleAgrees
    rw [← dashStarts_append_spaces _ _ _ more, same, dashStarts_append_spaces]
    exact dashStarts_layout fits solid 0
  have some' : (offsets 0 table.widths).isEmpty = false := by
    obtain ⟨later, begins⟩ := offsets_eq_cons 0 table.widths
    rw [begins]
    rfl
  have headers : cellsOf Firewall.isSpace out.header (offsets 0 table.widths) =
      table.headers :=
    cellsOf_layout (by decide) table.headers_fit
      (fun header member => (table.header_cells header member).1.trimmed)
      out.header_agrees
  unfold parseLeases
  rw [out.text_lines]
  simp only [place, above, below, rest, starts, some', headers,
    if_neg Bool.false_ne_true]
  rw [filterMap_filter_of_none]
  · have empty : (List.replicate out.ends []).filterMap (fun line =>
        leaseOf (table.headers.map lower)
          (cellsOf Firewall.isSpace line (offsets 0 table.widths))) = [] := by
      refine List.filterMap_eq_nil_iff.mpr fun line member => ?_
      rw [List.eq_of_mem_replicate member]
      refine leaseOf_of_empty fun cell inside => ?_
      exact cellsOf_of_blank (fun _ there => absurd there List.not_mem_nil) inside
    rw [List.filterMap_append, empty, List.append_nil,
      leases_of_rows (fun _ member => member) rowsAgree, TextTable.leases]
  · intro line _ blank
    rw [Bool.not_eq_false', List.isEmpty_iff] at blank
    exact leaseOf_of_empty fun cell inside =>
      cellsOf_of_blank (trimBy_eq_nil.mp blank) inside

/-- Without a rule nothing is read, if no row looks like one. -/
theorem parseLeases_unruled (titled : out.Titled) (plain : table.rule = none)
    (rows : ∀ row ∈ table.rows, ∃ cell ∈ row, ∃ char ∈ cell,
      isRuleChar char = false) :
    parseLeases lower out.text = [] := by
  have none : out.lines.findIdx? isSeparator = none := by
    refine List.findIdx?_eq_none_iff.mpr fun line member => ?_
    rcases List.mem_append.mp member with title | later
    · exact titled.2 line title
    rcases List.mem_cons.mp later with rfl | later
    · exact titled.1
    rcases List.mem_append.mp later with body | empty
    · obtain ⟨cells, inside, agrees⟩ := out.body_member body
      have row : cells ∈ table.rows := by
        rw [TextTable.below, plain] at inside
        exact inside
      rw [Bool.eq_false_iff]
      intro separates
      have dropped := isRow_of_isSeparator separates
      rw [isRow_layout (table.rows_fit cells row) agrees,
        hasText_iff.mpr (rows cells row)] at dropped
      cases dropped
    · rw [List.eq_of_mem_replicate empty]
      decide
  unfold parseLeases
  rw [out.text_lines]
  simp only [none]

end Printout

theorem TextTable.leases_eq_nil {table : TextTable}
    {lower : List Char → List Char} :
    table.leases lower = [] ↔
      ∀ row ∈ table.rows, table.entry lower isAddressLabel row = none := by
  rw [TextTable.leases, List.filterMap_eq_nil_iff]
  refine forall₂_congr fun row _ => ?_
  rw [TextTable.lease, Option.map_eq_none_iff]

/-- A printed table is read back, and so are its leases, if and only if each
row has something else than rules and blanks and leases have a rule above. -/
theorem readsBack_iff {table : TextTable} (out : Printout table)
    {lower : List Char → List Char} {keyword : List Char}
    (named : containsText (lower keyword) (lower out.header) = true)
    (untitled : ∀ title ∈ table.titles, isHeader lower keyword title = false) :
    out.ReadsBack lower keyword ↔ Readable table lower out.Titled := by
  constructor
  · rintro ⟨cells, leases⟩
    have rows := (out.cells_iff named untitled).mp cells
    refine ⟨rows, fun titled plain => TextTable.leases_eq_nil.mp ?_⟩
    rw [← leases titled, out.parseLeases_unruled titled plain rows]
  · rintro ⟨rows, ruled⟩
    refine ⟨(out.cells_iff named untitled).mpr rows, fun titled => ?_⟩
    cases rule : table.rule with
    | none =>
        rw [out.parseLeases_unruled titled rule rows,
          TextTable.leases_eq_nil.mpr (ruled titled rule)]
    | some counts => exact out.parseLeases_ruled titled rule

/-- Two leases, the second without an address, under a title. -/
def leaseTable : TextTable where
  titles := ["Leases".toList]
  widths := [12]
  headers := ["IP Address".toList, "State".toList]
  rule := some [10, 6]
  rows := [["10.0.0.2".toList, "active".toList], [[], "free".toList]]
  title_lines := by decide
  headers_fit := ⟨by decide, trivial⟩
  header_cells := by decide
  rule_fits := by
    rintro counts ⟨⟩
    exact ⟨⟨by decide, trivial⟩, by decide⟩
  rows_fit := by
    simp only [List.forall_mem_cons]
    exact ⟨⟨by decide, trivial⟩, ⟨by decide, trivial⟩, by simp⟩
  row_cells := by decide

/-- Its text, with the spaces at the ends trimmed. -/
def leasePrintout : Printout leaseTable where
  header := "IP Address  State".toList
  body := ["----------  ------".toList, "10.0.0.2    active".toList,
    "            free".toList]
  ends := 1
  header_agrees := ⟨0, 0, by decide⟩
  body_agrees := .cons ⟨0, 0, by decide⟩
    (.cons ⟨0, 0, by decide⟩ (.cons ⟨0, 0, by decide⟩ .nil))

theorem leases_read_back :
    leasePrintout.ReadsBack (List.map Char.toLower) "address".toList := by
  have rows : ∀ row ∈ leaseTable.rows, ∃ cell ∈ row, ∃ char ∈ cell,
      isRuleChar char = false := by
    simp only [leaseTable, List.forall_mem_cons]
    exact ⟨⟨_, .head _, '1', by decide, rfl⟩, ⟨_, .tail _ (.head _), 'f',
      by decide, rfl⟩, by simp⟩
  exact (readsBack_iff leasePrintout (by decide) (by decide)).mpr
    ⟨rows, fun _ plain => by cases plain⟩

/-- Two peers, of the second nothing is known. -/
def peerTable : TextTable where
  titles := []
  widths := [8]
  headers := ["Peer".toList, "State".toList]
  rule := none
  rows := [["alice".toList, "up".toList], ["-".toList, "-".toList]]
  title_lines := by decide
  headers_fit := ⟨by decide, trivial⟩
  header_cells := by decide
  rule_fits := by
    rintro counts ⟨⟩
  rows_fit := by
    simp only [List.forall_mem_cons]
    exact ⟨⟨by decide, trivial⟩, ⟨by decide, trivial⟩, by simp⟩
  row_cells := by decide

def peerPrintout : Printout peerTable where
  header := "Peer    State".toList
  body := ["alice   up".toList, "-       -".toList]
  ends := 0
  header_agrees := ⟨0, 0, by decide⟩
  body_agrees := .cons ⟨0, 0, by decide⟩ (.cons ⟨0, 0, by decide⟩ .nil)

/-- A row of dashes is taken for a rule. -/
theorem dashed_row_dropped :
    ¬ ∀ (table : TextTable) (out : Printout table)
        (lower : List Char → List Char) (keyword : List Char),
      containsText (lower keyword) (lower out.header) = true →
      (∀ title ∈ table.titles, isHeader lower keyword title = false) →
      out.ReadsBack lower keyword := by
  intro always
  have read := always peerTable peerPrintout (List.map Char.toLower)
    "Peer".toList (by decide) (by decide)
  exact absurd read.cells (by decide)

end QuartzFire.Monitoring
