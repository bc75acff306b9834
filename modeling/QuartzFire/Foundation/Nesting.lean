import QuartzFire.Foundation.Pairing

/-!
# Blocks of lines

Lines carry marks.  A block runs from the line that opens it to the line whose
last mark closes it, and a line stands inside the blocks still open before it.
Putting a block in changes nothing about where the other lines stand.
-/

namespace QuartzFire.Nesting

open Pairing

/-- The place of an item in one of two lists in a row. -/
theorem append_eq_append_cons {Item : Type*} {front back outer rest : List Item}
    {item : Item} (split : front ++ back = outer ++ item :: rest) :
    (∃ later, front = outer ++ item :: later ∧ rest = later ++ back) ∨
      ∃ later, outer = front ++ later ∧ back = later ++ item :: rest := by
  rcases List.append_eq_append_iff.mp split with
    behind | ⟨later, same, split⟩
  · exact .inr behind
  · cases later with
    | nil =>
        rw [List.append_nil] at same
        exact .inr ⟨[], by simp [same], split.symm⟩
    | cons first later =>
        injection split with first' split
        subst first'
        exact .inl ⟨later, same, split⟩

/-- The marks of lines.  A line that opens a block has no other mark. -/
structure Layout (Line Name : Type*) where
  marks : Line → List Int
  Opens : Name → Line → Prop
  opening : ∀ {name line}, Opens name line → marks line = [1]

namespace Layout

variable {Line Name : Type*} (layout : Layout Line Name)

def all (lines : List Line) : List Int := lines.flatMap layout.marks

/-- What follows these lines stands directly inside the named blocks, the
innermost first. -/
inductive Inside : List Name → List Line → Prop
  | top {front : List Line} (level : Paired (layout.all front)) :
      Inside [] front
  | block {name : Name} {path : List Name} {outer : List Line} {header : Line}
      {inner : List Line} (within : Inside path outer)
      (opens : layout.Opens name header) (level : Paired (layout.all inner)) :
      Inside (name :: path) (outer ++ header :: inner)

/-- The block after its lines `front` opens at the place named. -/
structure Opening (path : List Name) (name : Name) (lines front : List Line) :
    Prop where
  inside : layout.Inside path front
  next : ∃ header back, lines = front ++ header :: back ∧
    layout.Opens name header

/-- The last mark of the closing line is the one that closes the header's. -/
structure Encloses (name : Name) (header : Line) (inner : List Line)
    (closing : Line) : Prop where
  opens : layout.Opens name header
  closes : ∃ last, layout.marks closing = last ++ [-1] ∧
    Paired (layout.all inner ++ last)

def IsBlock (name : Name) (block : List Line) : Prop :=
  ∃ header inner closing, block = header :: (inner ++ [closing]) ∧
    layout.Encloses name header inner closing

/-- The first block of a name on the top level, with the lines around it. -/
structure FirstBlock (name : Name) (lines outer : List Line) (header : Line)
    (inner : List Line) (closing : Line) (back : List Line) : Prop where
  split : lines = outer ++ header :: (inner ++ closing :: back)
  level : Paired (layout.all outer)
  encloses : layout.Encloses name header inner closing
  first : ∀ other, layout.Opening [] name lines other →
    outer.length ≤ other.length

variable {layout}

@[simp] theorem all_nil : layout.all [] = [] := rfl

@[simp] theorem all_cons (line : Line) (rest : List Line) :
    layout.all (line :: rest) = layout.marks line ++ layout.all rest :=
  List.flatMap_cons

@[simp] theorem all_append (front back : List Line) :
    layout.all (front ++ back) = layout.all front ++ layout.all back :=
  List.flatMap_append

variable (layout) in
theorem all_starts {front lines : List Line} (starts : front <+: lines) :
    layout.all front <+: layout.all lines := by
  obtain ⟨back, rfl⟩ := starts
  rw [all_append]
  exact List.prefix_append _ _

/-! ## A block -/

namespace Encloses

variable {name : Name} {header : Line} {inner : List Line} {closing : Line}

/-- Inside a block nothing is closed that was not opened there. -/
theorem front_nonneg (encloses : layout.Encloses name header inner closing)
    {front : List Line} (starts : front <+: inner) :
    0 ≤ (layout.all front).sum := by
  obtain ⟨last, -, level⟩ := encloses.closes
  exact level.opened _
    ((all_starts layout starts).trans (List.prefix_append _ _))

theorem paired_front (encloses : layout.Encloses name header inner closing)
    {front : List Line} (starts : front <+: inner)
    (level : (layout.all front).sum = 0) : Paired (layout.all front) := by
  obtain ⟨last, -, inside⟩ := encloses.closes
  have starts' := (all_starts layout starts).trans (List.prefix_append _ last)
  exact inside.of_starts starts' level

theorem paired (encloses : layout.Encloses name header inner closing) :
    Paired (layout.all (header :: (inner ++ [closing]))) := by
  obtain ⟨last, ends, inside⟩ := encloses.closes
  have marks : layout.all (header :: (inner ++ [closing])) =
      1 :: ((layout.all inner ++ last) ++ [-1]) := by
    simp [layout.opening encloses.opens, ends]
  rw [marks]
  exact inside.enclosed

/-- Until its last line, a block is open. -/
theorem front_pos (encloses : layout.Encloses name header inner closing)
    {front : List Line} (starts : front <+: header :: inner)
    (nonempty : front ≠ []) : 1 ≤ (layout.all front).sum := by
  cases front with
  | nil => exact absurd rfl nonempty
  | cons line front =>
      obtain ⟨rfl, behind⟩ := List.cons_prefix_cons.mp starts
      have inside := encloses.front_nonneg behind
      rw [all_cons, layout.opening encloses.opens, List.sum_append,
        List.sum_singleton]
      omega

end Encloses

/-- A block does not begin another one that goes on. -/
theorem IsBlock.eq_of_starts {name : Name} {block longer : List Line}
    (isBlock : layout.IsBlock name block) (whole : layout.IsBlock name longer)
    (starts : block <+: longer) : block = longer := by
  obtain ⟨header, inner, closing, rfl, encloses⟩ := whole
  rw [← List.cons_append] at starts ⊢
  rcases List.prefix_concat_iff.mp starts with same | early
  · exact same
  · obtain ⟨first, between, last, rfl, closed⟩ := isBlock
    have open' := encloses.front_pos early (List.cons_ne_nil _ _)
    rw [closed.paired.closed] at open'
    omega

/-! ## The place of a line -/

theorem Inside.level {path : List Name} {front : List Line}
    (inside : layout.Inside path front) :
    (layout.all front).sum = path.length := by
  induction inside with
  | top level => exact level.closed
  | block within opens level ih =>
      rw [all_append, all_cons, layout.opening opens, List.sum_append,
        List.sum_append, ih, level.closed]
      simp

theorem paired_all_insert {front middle back : List Line}
    (paired : Paired (layout.all middle)) :
    Paired (layout.all (front ++ (middle ++ back))) ↔
      Paired (layout.all (front ++ back)) := by
  rw [all_append, all_append, all_append]
  exact paired_insert paired

/-- A paired part before or after a place does not move it. -/
theorem inside_insert {path : List Name} {front middle back : List Line}
    (paired : Paired (layout.all middle)) :
    layout.Inside path (front ++ (middle ++ back)) ↔
      layout.Inside path (front ++ back) := by
  induction path generalizing back with
  | nil =>
      have top : ∀ lines, layout.Inside [] lines ↔
          Paired (layout.all lines) := by
        intro lines
        constructor
        · intro inside
          cases inside with
          | top level => exact level
        · exact .top
      rw [top, top]
      exact paired_all_insert paired
  | cons name path ih =>
      constructor
      · intro inside
        generalize same : front ++ (middle ++ back) = lines at inside
        cases inside with
        | @block _ _ outer header inner within opens level =>
            rcases append_eq_append_cons same with
              ⟨later, rfl, rfl⟩ | ⟨later, rfl, behind⟩
            · rw [List.append_assoc, List.cons_append]
              exact .block within opens ((paired_all_insert paired).mp level)
            · rcases append_eq_append_cons behind with
                ⟨rest, rfl, rfl⟩ | ⟨later, rfl, rfl⟩
              · -- a header in the middle part is closed there, not behind it
                have opened := paired.opened (layout.all later)
                  (all_starts layout (List.prefix_append _ _))
                have inside := level.opened (layout.all rest)
                  (all_starts layout (List.prefix_append _ _))
                have closed := paired.closed
                rw [all_append, all_cons, layout.opening opens] at closed
                simp only [List.sum_append, List.sum_singleton] at closed
                omega
              · rw [← List.append_assoc]
                exact .block (ih.mp within) opens level
      · intro inside
        generalize same : front ++ back = lines at inside
        cases inside with
        | @block _ _ outer header inner within opens level =>
            rcases append_eq_append_cons same with
              ⟨later, rfl, rfl⟩ | ⟨later, rfl, rfl⟩
            · rw [List.append_assoc, List.cons_append]
              exact .block within opens ((paired_all_insert paired).mpr level)
            · rw [← List.append_assoc middle, ← List.append_assoc]
              exact .block (ih.mpr within) opens level

/-! ## The only block at a place -/

theorem opening_front {path : List Name} {name : Name}
    {front back other : List Line} {header : Line} {later : List Line}
    (inside : layout.Inside path other) (opens : layout.Opens name header)
    (split : front = other ++ header :: later) :
    layout.Opening path name (front ++ back) other where
  inside := inside
  next := ⟨header, later ++ back, by simp [split], opens⟩

/-- A block put in where none was is the only one. -/
theorem only_opening_iff {path : List Name} {name : Name}
    {front block back : List Line} (inside : layout.Inside path front)
    (isBlock : layout.IsBlock name block) :
    (∀ other, layout.Opening path name (front ++ (block ++ back)) other ↔
        other = front) ↔
      ∀ other, ¬ layout.Opening path name (front ++ back) other := by
  obtain ⟨header, inner, closing, rfl, encloses⟩ := isBlock
  constructor
  · rintro only other ⟨inside', next, rest, split, opens⟩
    rcases append_eq_append_cons split with
      ⟨later, same, -⟩ | ⟨later, rfl, rfl⟩
    · have equal := (only other).mp (opening_front inside' opens same)
      rw [equal] at same
      have longer := congrArg List.length same
      rw [List.length_append, List.length_cons] at longer
      omega
    · have moved := (inside_insert encloses.paired).mpr inside'
      have equal := (only _).mp ⟨moved, next, rest, by simp, opens⟩
      have longer := congrArg List.length equal
      simp at longer
  · intro none' other
    constructor
    · rintro ⟨inside', next, rest, split, opens⟩
      rcases append_eq_append_cons split with
        ⟨later, same, -⟩ | ⟨later, rfl, behind⟩
      · exact absurd (opening_front inside' opens same) (none' other)
      · rcases append_eq_append_cons behind with
          ⟨later', split', -⟩ | ⟨later', rfl, rfl⟩
        · by_contra moved
          have starts : later <+: header :: inner := by
            have whole : later <+: (header :: inner) ++ [closing] :=
              ⟨_, split'.symm⟩
            rcases List.prefix_concat_iff.mp whole with same | starts
            · have longer := congrArg List.length split'
              rw [List.length_append, same] at longer
              simp at longer
            · exact starts
          have some' : later ≠ [] := by
            rintro rfl
            exact moved (List.append_nil _)
          have above := encloses.front_pos starts some'
          have level := inside'.level
          rw [all_append, List.sum_append, inside.level] at level
          omega
        · have moved := (inside_insert encloses.paired).mp inside'
          exact absurd ⟨moved, next, rest, by simp, opens⟩ (none' _)
    · rintro rfl
      exact ⟨inside, header, inner ++ closing :: back, by simp, encloses.opens⟩

/-! ## The first block at a place -/

theorem FirstBlock.split_nested {name name' : Name}
    {lines outer outer' : List Line} {header header' : Line}
    {inner inner' back back' : List Line} {closing closing' : Line}
    (block : layout.FirstBlock name lines outer header inner closing back)
    (nested :
      layout.FirstBlock name' inner outer' header' inner' closing' back') :
    lines = (outer ++ header :: outer') ++
      ((header' :: (inner' ++ [closing'])) ++ (back' ++ closing :: back)) := by
  rw [block.split, nested.split]
  simp

/-- The first block in the first block. -/
theorem FirstBlock.nested {name name' : Name}
    {lines outer outer' : List Line} {header header' : Line}
    {inner inner' back back' : List Line} {closing closing' : Line}
    (block : layout.FirstBlock name lines outer header inner closing back)
    (nested :
      layout.FirstBlock name' inner outer' header' inner' closing' back')
    {other : List Line} (opening : layout.Opening [name] name' lines other) :
    (outer ++ header :: outer').length ≤ other.length := by
  obtain ⟨inside, next, rest, split, opens⟩ := opening
  cases inside with
  | @block _ _ front first between within opens' level =>
      cases within with
      | top top =>
          have before := block.first front
            ⟨.top top, first, between ++ next :: rest, by simp [split], opens'⟩
          have room : outer'.length ≤ inner.length := by
            have longer := congrArg List.length nested.split
            rw [List.length_append] at longer
            omega
          have split' := block.split.symm.trans split
          rw [List.append_assoc, List.cons_append] at split'
          rcases append_eq_append_cons split' with
            ⟨later, same, -⟩ | ⟨later, rfl, same⟩
          · have longer := congrArg List.length same
            rw [List.length_append, List.length_cons] at longer
            omega
          · cases later with
            | nil =>
                injection same with _ same
                rcases append_eq_append_cons same with
                  ⟨later, split, -⟩ | ⟨later, rfl, -⟩
                · have behind := nested.first between
                    ⟨.top level, next, later, split, opens⟩
                  simp only [List.length_append, List.length_cons,
                    List.length_nil]
                  omega
                · simp only [List.length_append, List.length_cons,
                    List.length_nil]
                  omega
            | cons first' later =>
                injection same with first'' same
                subst first''
                rcases append_eq_append_cons same with
                  ⟨rest', split, -⟩ | ⟨rest', rfl, -⟩
                · -- the first block would be closed before its last line
                  have starts : later <+: inner := ⟨_, split.symm⟩
                  have inside := block.encloses.front_nonneg starts
                  have closed := top.closed
                  rw [all_append, all_cons, List.sum_append, List.sum_append,
                    block.level.closed, layout.opening block.encloses.opens,
                    List.sum_singleton] at closed
                  omega
                · simp only [List.length_append, List.length_cons]
                  omega

end Layout

end QuartzFire.Nesting
