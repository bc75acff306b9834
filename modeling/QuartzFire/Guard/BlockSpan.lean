import QuartzFire.Foundation.Nesting
import QuartzFire.Guard.BootTree

/-!
# Blocks of a configuration text

Where a block begins and ends is found line by line, from the braces of the
lines in between.  Comment lines, which the check of a text passes over, are
counted here as any other.
-/

namespace QuartzFire.Guard

open Nesting Pairing TextLines

/-! ## The scan -/

def openingLine (name : NodeName) : List Char := name.text ++ [' ', '{']

def lineDepth (line : List Char) : Int :=
  (trim line).count '{' - (trim line).count '}'

/-- The number of the line at which as many braces are closed as opened. -/
def closingLine (depth : Int) (j : Nat) : List (List Char) → Option Nat
  | [] => none
  | line :: rest =>
      let depth := depth + lineDepth line
      if depth = 0 then some j else closingLine depth (j + 1) rest

/-- The search for a block through lines from number `i` on; `found` takes its
first and last number and the lines between. -/
def scan (name : NodeName)
    (found : Nat → Nat → List (List Char) → Option (Nat × Nat)) (depth : Int)
    (i : Nat) : List (List Char) → Option (Nat × Nat)
  | [] => none
  | line :: rest =>
      if depth = 0 ∧ trim line = openingLine name then
        (closingLine 0 i (line :: rest)).bind fun j =>
          found i j (rest.take (j - (i + 1)))
      else scan name found (depth + lineDepth line) (i + 1) rest

def find : List NodeName → Nat → List (List Char) → Option (Nat × Nat)
  | [], _, _ => none
  | [name], start, lines => scan name (fun i j _ => some (i, j)) 0 start lines
  | name :: next :: path, start, lines =>
      scan name (fun i _ inner => find (next :: path) (i + 1) inner) 0 start
        lines

def blockSpan (lines : List (List Char)) (path : List NodeName) :
    Option (Nat × Nat) :=
  find path 0 lines

def service : NodeName := .of "service" (by decide) rfl

def https : NodeName := .of "https" (by decide) rfl

def api : NodeName := .of "api" (by decide) rfl

def keys : NodeName := .of "keys" (by decide) rfl

/-- The lines of a span. -/
def spanLines (lines : List (List Char)) (first last : Nat) :
    List (List Char) :=
  (lines.drop first).take (last + 1 - first)

def hasWebuiApiKey (config : String) : Bool :=
  let lines := lines config.toList
  match blockSpan lines [service, https, api, keys] with
  | some (s, e) => (spanLines lines s e).any fun line =>
      decide (trim line = "id quartzfire \x7b".toList)
  | none => false

/-! ## Braces as the check counts them -/

def lineMarks (line : List Char) : List Int :=
  if isSignificant (trim line) = true then braceMarks (trim line) else []

theorem lineMarks_opening {name : NodeName} {line : List Char}
    (opens : trim line = openingLine name) : lineMarks line = [1] := by
  have significant : isSignificant (openingLine name) = true := by
    cases shape : name.text with
    | nil => exact absurd shape name.nonempty
    | cons first rest =>
        have slash : '/' ≠ first := by
          rintro rfl
          exact name.not_mem rfl (shape ▸ List.mem_cons_self)
        simp [isSignificant, openingLine, shape, List.isPrefixOf, slash]
  rw [lineMarks, opens, if_pos significant, openingLine, braceMarks_append,
    braceMarks_name]
  rfl

/-- Blocks as the check sees them: comment lines have no braces. -/
def config : Layout (List Char) NodeName where
  marks := lineMarks
  Opens name line := trim line = openingLine name
  opening := lineMarks_opening

theorem all_config (items : List (List Char)) :
    config.all items =
      ((items.map trim).filter isSignificant).flatMap braceMarks := by
  induction items with
  | nil => rfl
  | cons line rest ih =>
      rw [Layout.all_cons, ih, List.map_cons, List.filter_cons]
      change lineMarks line ++ _ = _
      unfold lineMarks
      split
      · rw [List.flatMap_cons]
      · rfl

/-- The scan sees no more in the line than the check does: a comment closes
what it opens. -/
def Counted (line : List Char) : Prop :=
  isSignificant (trim line) = false → lineDepth line = 0

theorem sum_braceMarks (text : List Char) :
    (braceMarks text).sum = text.count '{' - text.count '}' := by
  induction text with
  | nil => rfl
  | cons char rest ih =>
      have first : braceMarks (char :: rest) =
          (braceMark char).toList ++ braceMarks rest := by
        unfold braceMarks
        cases mark : braceMark char with
        | none => rw [List.filterMap_cons_none mark, Option.toList_none,
            List.nil_append]
        | some value => rw [List.filterMap_cons_some mark, Option.toList_some,
            List.singleton_append]
      rw [first, List.sum_append, ih, List.count_cons, List.count_cons]
      unfold braceMark
      split
      · rename_i opens
        subst opens
        simp
        omega
      · rename_i other
        split
        · rename_i closes
          subst closes
          simp
          omega
        · rename_i neither
          simp [other, neither]

theorem Counted.depth {line : List Char} (counted : Counted line) :
    lineDepth line = (lineMarks line).sum := by
  unfold lineMarks
  split
  · rw [sum_braceMarks]
    rfl
  · rename_i comment
    exact counted (Bool.eq_false_iff.mpr comment)

theorem depth_lines {items : List (List Char)}
    (counted : ∀ line ∈ items, Counted line) :
    (items.map lineDepth).sum = (config.all items).sum := by
  induction items with
  | nil => rfl
  | cons line rest ih =>
      rw [List.forall_mem_cons] at counted
      rw [List.map_cons, List.sum_cons, ih counted.2, counted.1.depth,
        Layout.all_cons, List.sum_append]
      rfl

/-! ## What the scan finds -/

/-- No line ends on the level at which the scan stops. -/
theorem closingLine_append {depth : Int} {j : Nat}
    {front back : List (List Char)}
    (apart : ∀ lines, lines <+: front → lines ≠ [] →
      depth + (lines.map lineDepth).sum ≠ 0) :
    closingLine depth j (front ++ back) =
      closingLine (depth + (front.map lineDepth).sum) (j + front.length)
        back := by
  induction front generalizing depth j with
  | nil => simp
  | cons line front ih =>
      have first := apart [line] (List.prefix_append [line] front)
        (List.cons_ne_nil _ _)
      rw [List.map_singleton, List.sum_singleton] at first
      rw [List.cons_append, closingLine, if_neg first, ih, List.map_cons,
        List.sum_cons, List.length_cons, Int.add_assoc, Nat.add_assoc,
        Nat.add_comm 1]
      intro lines starts some'
      have level := apart (line :: lines)
        ((List.prefix_cons_inj line).mpr starts) (List.cons_ne_nil _ _)
      rw [List.map_cons, List.sum_cons] at level
      rw [Int.add_assoc]
      exact level

/-- A whole block is closed at its last line. -/
theorem closingLine_encloses {name : NodeName} {header closing : List Char}
    {inner back : List (List Char)} {i : Nat}
    (encloses : config.Encloses name header inner closing)
    (counted : ∀ line ∈ header :: (inner ++ [closing]), Counted line) :
    closingLine 0 i (header :: (inner ++ closing :: back)) =
      some (i + inner.length + 1) := by
  rw [← List.cons_append, List.forall_mem_append] at counted
  have level := encloses.paired.closed
  rw [← List.cons_append, Layout.all_append, List.sum_append] at level
  rw [← List.cons_append, closingLine_append]
  · rw [closingLine, Int.zero_add, depth_lines counted.1]
    have last := depth_lines counted.2
    rw [List.map_singleton, List.sum_singleton] at last
    rw [last, if_pos level, List.length_cons]
    rfl
  · intro lines starts some'
    have open' := encloses.front_pos starts some'
    rw [Int.zero_add,
      depth_lines fun line member => counted.1 line (starts.mem member)]
    omega

/-- Where no block of the name opens on the level of the scan, it goes on. -/
theorem scan_append {name : NodeName}
    {found : Nat → Nat → List (List Char) → Option (Nat × Nat)} {depth : Int}
    {i : Nat} {front back : List (List Char)}
    (apart : ∀ lines header rest, front = lines ++ header :: rest →
      trim header = openingLine name → depth + (lines.map lineDepth).sum ≠ 0) :
    scan name found depth i (front ++ back) =
      scan name found (depth + (front.map lineDepth).sum) (i + front.length)
        back := by
  induction front generalizing depth i with
  | nil => simp
  | cons line front ih =>
      have other : ¬ (depth = 0 ∧ trim line = openingLine name) := by
        rintro ⟨level, opens⟩
        exact apart [] line front rfl opens (by simp [level])
      rw [List.cons_append, scan, if_neg other, ih, List.map_cons,
        List.sum_cons, List.length_cons, Int.add_assoc, Nat.add_assoc,
        Nat.add_comm 1]
      intro lines header rest split opens
      have level := apart (line :: lines) header rest (by rw [split]; rfl) opens
      rw [List.map_cons, List.sum_cons] at level
      rw [Int.add_assoc]
      exact level

theorem scan_eq_none {name : NodeName}
    {found : Nat → Nat → List (List Char) → Option (Nat × Nat)} {i : Nat}
    {lines : List (List Char)} (counted : ∀ line ∈ lines, Counted line)
    (level : ∀ front, front <+: lines → (config.all front).sum = 0 →
      Paired (config.all front))
    (none' : ∀ front, ¬ config.Opening [] name lines front) :
    scan name found 0 i lines = none := by
  rw [← List.append_nil lines, scan_append]
  · rfl
  · intro front header rest split opens same
    have starts : front <+: lines := ⟨_, split.symm⟩
    rw [Int.zero_add,
      depth_lines fun line member => counted line (starts.mem member)] at same
    exact none' front
      ⟨.top (level front starts same), header, rest, split, opens⟩

/-- The first block of the name is found, from its first line to its last. -/
theorem scan_firstBlock {name : NodeName}
    {found : Nat → Nat → List (List Char) → Option (Nat × Nat)} {i : Nat}
    {lines outer inner back : List (List Char)} {header closing : List Char}
    (block : config.FirstBlock name lines outer header inner closing back)
    (counted : ∀ line ∈ outer ++ header :: (inner ++ [closing]),
      Counted line) :
    scan name found 0 i lines =
      found (i + outer.length) (i + outer.length + inner.length + 1) inner := by
  rw [List.forall_mem_append] at counted
  rw [block.split, scan_append]
  · rw [Int.zero_add, depth_lines counted.1, block.level.closed, scan,
      if_pos ⟨rfl, block.encloses.opens⟩,
      closingLine_encloses block.encloses counted.2, Option.bind_some,
      Nat.add_sub_add_right, Nat.add_sub_cancel_left, List.take_left']
    rfl
  · intro front first rest split opens same
    have starts : front <+: outer := ⟨_, split.symm⟩
    rw [Int.zero_add,
      depth_lines fun line member => counted.1 line (starts.mem member)] at same
    have level := block.level.of_starts
      (Layout.all_starts config starts) same
    have before := block.first front ⟨.top level, first,
      rest ++ header :: (inner ++ closing :: back), by
        rw [block.split, split, List.append_assoc, List.cons_append], opens⟩
    rw [split, List.length_append, List.length_cons] at before
    omega

end QuartzFire.Guard
