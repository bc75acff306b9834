import QuartzFire.Foundation.Blanks

/-!
# Cells in columns

Lines of cells that are padded to the widths of their columns, and the cells
that are cut out of a line where the columns begin.
-/

namespace QuartzFire.Columns

variable {Symbol : Type*} (space : Symbol)

def pad (width : Nat) (cell : List Symbol) : List Symbol :=
  cell ++ List.replicate (width - cell.length) space

/-- Each cell padded to the width of its column, the last one as it is. -/
def layout : List Nat → List (List Symbol) → List Symbol
  | width :: widths, cell :: cells =>
      pad space width cell ++ layout widths cells
  | [], cell :: _ => cell
  | _, [] => []

/-- One cell for each column, and all but the last `gap` below its width. -/
def Fits (gap : Nat) : List Nat → List (List Symbol) → Prop
  | width :: widths, cell :: cells =>
      cell.length + gap ≤ width ∧ Fits gap widths cells
  | [], [_] => True
  | _, _ => False

/-- Where the columns begin. -/
def offsets (base : Nat) : List Nat → List Nat
  | [] => [base]
  | width :: widths => base :: offsets (base + width) widths

/-- The same line but for spaces at the end. -/
def Agrees (line full : List Symbol) : Prop :=
  ∃ more fewer, line ++ List.replicate more space =
    full ++ List.replicate fewer space

def slice (line : List Symbol) (start stop : Nat) : List Symbol :=
  (line.take stop).drop start

/-- What stands between two starts, trimmed. -/
def cellsOf (blank : Symbol → Bool) (line : List Symbol) :
    List Nat → List (List Symbol)
  | [] => []
  | [start] => [trimBy blank (slice line start line.length)]
  | start :: stop :: starts =>
      trimBy blank (slice line start stop) ::
        cellsOf blank line (stop :: starts)

variable {space}

/-! ## What a line holds -/

theorem length_pad {width : Nat} {cell : List Symbol}
    (narrow : cell.length ≤ width) : (pad space width cell).length = width := by
  rw [pad, List.length_append, List.length_replicate]
  omega

theorem Fits.length_eq {gap : Nat} {widths : List Nat}
    {cells : List (List Symbol)} (fits : Fits gap widths cells) :
    cells.length = widths.length + 1 := by
  induction widths generalizing cells with
  | nil =>
      match cells, fits with
      | [_], _ => rfl
  | cons width widths ih =>
      match cells, fits with
      | _ :: _, ⟨_, later⟩ => rw [List.length_cons, ih later, List.length_cons]

theorem offsets_eq_cons (base : Nat) (widths : List Nat) :
    ∃ later, offsets base widths = base :: later := by
  cases widths with
  | nil => exact ⟨[], rfl⟩
  | cons width widths => exact ⟨_, rfl⟩

theorem mem_layout {gap : Nat} {widths : List Nat}
    {cells : List (List Symbol)} (fits : Fits gap widths cells)
    {symbol : Symbol} (other : symbol ≠ space) :
    symbol ∈ layout space widths cells ↔ ∃ cell ∈ cells, symbol ∈ cell := by
  induction widths generalizing cells with
  | nil =>
      match cells, fits with
      | [cell], _ => simp [layout]
  | cons width widths ih =>
      match cells, fits with
      | cell :: cells, ⟨_, later⟩ =>
          have padding : symbol ∉ List.replicate (width - cell.length) space :=
            fun member => other (List.eq_of_mem_replicate member)
          rw [layout, pad, List.mem_append, List.mem_append, ih later]
          simp only [padding, or_false, List.mem_cons, exists_eq_or_imp]

theorem Agrees.mem_iff {line full : List Symbol} (agrees : Agrees space line full)
    {symbol : Symbol} (other : symbol ≠ space) : symbol ∈ line ↔ symbol ∈ full := by
  obtain ⟨more, fewer, same⟩ := agrees
  have padding : ∀ count, symbol ∉ List.replicate count space :=
    fun count member => other (List.eq_of_mem_replicate member)
  have members : symbol ∈ line ++ List.replicate more space ↔
      symbol ∈ full ++ List.replicate fewer space := by rw [same]
  simpa only [List.mem_append, padding, or_false] using members

/-! ## Cutting out the cells -/

section Cutting

variable {blank : Symbol → Bool} (white : blank space = true)

include white

theorem trimBy_append_spaces (text : List Symbol) (count : Nat) :
    trimBy blank (text ++ List.replicate count space) = trimBy blank text := by
  induction count with
  | zero => rw [List.replicate_zero, List.append_nil]
  | succ count ih =>
      rw [List.replicate_succ', ← List.append_assoc, trimBy_concat white, ih]

theorem trimBy_slice_append (line : List Symbol) (count start stop : Nat) :
    trimBy blank (slice (line ++ List.replicate count space) start stop) =
      trimBy blank (slice line start stop) := by
  rw [slice, slice, List.take_append, List.drop_append, List.take_replicate,
    List.drop_replicate, trimBy_append_spaces white]

/-- Spaces at the end of a line belong to no cell. -/
theorem cellsOf_append_spaces (line : List Symbol) (count : Nat)
    (starts : List Nat) :
    cellsOf blank (line ++ List.replicate count space) starts =
      cellsOf blank line starts := by
  induction starts with
  | nil => rfl
  | cons start starts ih =>
      cases starts with
      | nil =>
          have rest : slice line start line.length =
              slice line start (line ++ List.replicate count space).length := by
            rw [slice, slice, List.take_length, List.take_of_length_le (by simp)]
          rw [cellsOf, cellsOf, trimBy_slice_append white, rest]
      | cons stop starts =>
          rw [cellsOf, cellsOf, trimBy_slice_append white, ih]

theorem Agrees.cellsOf_eq {line full : List Symbol}
    (agrees : Agrees space line full) (starts : List Nat) :
    cellsOf blank line starts = cellsOf blank full starts := by
  obtain ⟨more, fewer, same⟩ := agrees
  rw [← cellsOf_append_spaces white line more, same,
    cellsOf_append_spaces white]

theorem cellsOf_layout_append {gap : Nat} {widths : List Nat}
    {cells : List (List Symbol)} (fits : Fits gap widths cells)
    (trimmed : ∀ cell ∈ cells, trimBy blank cell = cell)
    (front : List Symbol) :
    cellsOf blank (front ++ layout space widths cells)
      (offsets front.length widths) = cells := by
  induction widths generalizing cells front with
  | nil =>
      match cells, fits with
      | [cell], _ =>
          rw [offsets, cellsOf, slice, List.take_length, layout,
            List.drop_left, trimmed cell List.mem_cons_self]
  | cons width widths ih =>
      match cells, fits with
      | cell :: cells, ⟨narrow, later⟩ =>
          rw [List.forall_mem_cons] at trimmed
          have padded : (pad space width cell).length = width :=
            length_pad (by omega)
          have rest := ih later trimmed.2 (front ++ pad space width cell)
          rw [List.length_append, padded] at rest
          have whole : front ++ layout space (width :: widths) (cell :: cells) =
              front ++ pad space width cell ++ layout space widths cells := by
            rw [layout, List.append_assoc]
          have first : slice (front ++ pad space width cell ++
                layout space widths cells) front.length
                (front.length + width) = pad space width cell := by
            have stop : front.length + width =
                (front ++ pad space width cell).length := by
              rw [List.length_append, padded]
            rw [slice, stop, List.take_left, List.drop_left]
          rw [whole, offsets]
          obtain ⟨starts, begins⟩ := offsets_eq_cons (front.length + width)
            widths
          rw [begins] at rest ⊢
          rw [cellsOf, first, pad, trimBy_append_spaces white, trimmed.1]
          exact congrArg (cell :: ·) rest

omit white in
theorem cellsOf_of_blank {line : List Symbol}
    (covered : ∀ symbol ∈ line, blank symbol = true) {starts : List Nat}
    {cell : List Symbol} (member : cell ∈ cellsOf blank line starts) :
    cell = [] := by
  have empty : ∀ start stop, trimBy blank (slice line start stop) = [] :=
    fun start stop => trimBy_eq_nil.mpr fun symbol inside =>
      covered symbol (List.mem_of_mem_take (List.mem_of_mem_drop inside))
  induction starts with
  | nil => cases member
  | cons start starts ih =>
      cases starts with
      | nil =>
          rw [cellsOf, List.mem_singleton] at member
          rw [member, empty]
      | cons stop starts =>
          rw [cellsOf] at member
          rcases List.mem_cons.mp member with rfl | later
          · exact empty start stop
          · exact ih later

/-- A line that is laid out is cut into the cells it was laid out from. -/
theorem cellsOf_layout {gap : Nat} {widths : List Nat}
    {cells : List (List Symbol)} (fits : Fits gap widths cells)
    (trimmed : ∀ cell ∈ cells, trimBy blank cell = cell) {line : List Symbol}
    (agrees : Agrees space line (layout space widths cells)) :
    cellsOf blank line (offsets 0 widths) = cells := by
  rw [agrees.cellsOf_eq white]
  exact cellsOf_layout_append white fits trimmed []

end Cutting

end QuartzFire.Columns
