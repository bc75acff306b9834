import QuartzFire.Editing.Overwriting
import QuartzFire.Editing.Rows

/-!
# Rows that are written field by field

The rows of a list have the same fields.  What a save makes of each row is then
a matter of its fields, and what lies beside them is as it was.
-/

namespace QuartzFire.Editing

open ConfigTree
open Firewall (Cfg Path VyosCommand trimmed)

/-- How the rows of a list are read and written. -/
structure RowForm (Num Key Row : Type) where
  key : Row → Key
  parse : Key → Cfg → Row
  pushes : Option Row → Row → List (Push Num)
  shape : List (Path × Kind)
  keys : ∀ k raw, key (parse k raw) = k
  shaped : ∀ live row, shapeOf (pushes live row) = shape
  apart : (shape.map Prod.fst).Pairwise Diverges
  proper : [] ∉ shape.map Prod.fst

/-- Something that no field of the shape covers. -/
def HasOther (shape : List (Path × Kind)) (raw : Cfg) : Prop :=
  ∃ probe, (∀ field ∈ shape, Diverges field.1 probe) ∧
    (subtree probe raw).isSome = true

variable {Num Key Row : Type} (numerals : Numerals Num)
  (form : RowForm Num Key Row)

namespace RowForm

/-- The fields of a row, in blocks. -/
def blocks (live : Option Row) (row : Row) : List (Block String) :=
  (form.pushes live row).map (Push.block numerals)

/-- A row is made first when it is not there. -/
def diff (live : Option Row) (row : Row) : List VyosCommand :=
  made live.isSome (laid (form.blocks numerals live row))

variable {form} {live : Option Row} {row : Row}

theorem paths (live : Option Row) (row : Row) :
    (form.pushes live row).map Push.path = form.shape.map Prod.fst := by
  rw [← form.shaped live row, List.map_map]
  rfl

theorem separate (live : Option Row) (row : Row) :
    Separate (form.blocks numerals live row) := by
  refine separate_pushes numerals ?_
  rw [form.paths]
  exact form.apart

theorem laid_proper (live : Option Row) (row : Row) :
    ∀ command ∈ laid (form.blocks numerals live row),
      command ≠ .delete [] := by
  refine (form.separate numerals live row).proper ?_
  rw [blocks, written_pushes, form.paths]
  exact form.proper

theorem diff_proper (live : Option Row) (row : Row) :
    ∀ command ∈ form.diff numerals live row, command ≠ .delete [] := by
  have fields := form.laid_proper numerals live row
  unfold diff made
  split
  · exact fields
  · simpa using fields

theorem diff_creates (row : Row) :
    (form.diff numerals none row).any Command.isSet = true := by
  simp [diff, made, Command.isSet]

theorem executeAll_diff {kinds : Kinds String} (raw : Cfg) :
    executeAll kinds (form.diff numerals live row) raw =
      executeAll kinds (laid (form.blocks numerals live row)) raw := by
  unfold diff made
  split
  · rfl
  · exact executeAll_set_nil _ raw

/-- What no field covers is as it was. -/
theorem subtree_other {kinds : Kinds String} {raw : Cfg} {probe : Path}
    (diverges : ∀ field ∈ form.shape, Diverges field.1 probe) :
    subtree probe (executeAll kinds (form.diff numerals live row) raw) =
      subtree probe raw := by
  rw [executeAll_diff]
  refine (spares_laid (form.separate numerals live row).each ?_).subtree_eq raw
  rw [blocks, written_pushes, form.paths]
  exact List.forall_mem_map.mpr diverges

theorem hasOther_saved {kinds : Kinds String} {raw : Cfg} :
    HasOther form.shape (executeAll kinds (form.diff numerals live row) raw) ↔
      HasOther form.shape raw := by
  refine exists_congr fun probe => and_congr_right fun diverges => ?_
  rw [subtree_other numerals diverges]

end RowForm

namespace RowForm

variable {numerals form} {kinds : Kinds String} {live : Option Row} {row : Row}
  {raw : Cfg} {push : Push Num}

/-- What the commands of one field make of its path is there in the end. -/
theorem push_yields (conforms : Conforms kinds raw)
    (member : push ∈ form.pushes live row) {mark : Option Cfg → Prop}
    (yields : Yields kinds push.path (subtree push.path raw) mark
      (push.commands numerals)) :
    mark (subtree push.path
      (executeAll kinds (form.diff numerals live row) raw)) := by
  rw [form.executeAll_diff]
  exact yields.within_blocks (form.separate numerals live row)
    (List.mem_map_of_mem member) (List.mem_singleton_self _)
    (List.prefix_refl _) conforms

theorem push_listed (member : push ∈ form.pushes live row) :
    (push.path, push.kind) ∈ form.shape := by
  rw [← form.shaped live row]
  exact List.mem_map_of_mem member

/-- A field of a row is brought to what is desired. -/
theorem push_done (shaped : Shaped kinds form.shape)
    (leaves : ∀ field ∈ form.shape, field.2 ≠ .node)
    (conforms : Conforms kinds raw) (member : push ∈ form.pushes live row)
    (reads : push.Live numerals raw) :
    push.Done numerals (executeAll kinds (form.diff numerals live row) raw) := by
  rw [form.executeAll_diff]
  exact Push.done numerals (form.separate numerals live row)
    (List.mem_map_of_mem member)
    (Push.fits_of_kind (shaped _ (form.push_listed member)) fun isNode =>
      absurd isNode (leaves _ (form.push_listed member))) conforms reads

/-! ### Rows that are read as they are saved -/

variable {fields : Option Row → Row → List (Push Num)}

/-- Fields whose live side is what is read at their paths. -/
structure Plain (form : RowForm Num Key Row) (numerals : Numerals Num)
    (fields : Option Row → Row → List (Push Num)) : Prop where
  among : ∀ live row, ∀ push ∈ fields live row, push ∈ form.pushes live row
  blanks : ∀ live row, (fields live row).map Push.blank = fields none row
  reads : ∀ k raw row, ∀ push ∈ fields (some (form.parse k raw)) row,
    push.Live numerals raw

/-- A row that is opened shows the node, or there is no node. -/
def Opened (form : RowForm Num Key Row) (k : Key) (live : Option Row)
    (raw : Cfg) : Prop :=
  live = some (form.parse k raw) ∨ live = none ∧ raw = .node []

theorem opened_subtree (k : Key) (path : Path) (cfg : Cfg) :
    form.Opened k ((subtree path cfg).map (form.parse k)) (slice path cfg) := by
  rw [Opened, slice]
  cases subtree path cfg with
  | none => exact .inr ⟨rfl, rfl⟩
  | some raw => exact .inl rfl

theorem Plain.opened_live (plain : form.Plain numerals fields) {k : Key}
    (opened : form.Opened k live raw) (row : Row) :
    ∀ push ∈ fields live row, push.Live numerals raw := by
  rcases opened with rfl | ⟨rfl, rfl⟩
  · exact plain.reads k raw row
  · intro push member
    have listed := form.push_listed (plain.among none row push member)
    rw [← plain.blanks none row] at member
    obtain ⟨other, _, rfl⟩ := List.mem_map.mp member
    refine Push.blank_live_of_absent (subtree_of_leaf rfl fun empty => ?_)
    refine form.proper ?_
    rw [← empty, ← Push.path_blank]
    exact List.mem_map_of_mem listed

theorem Plain.whole_congr (plain : form.Plain numerals fields)
    (live : Option Row) (row : Row) :
    (∀ push ∈ fields live row, push.Whole numerals) ↔
      ∀ push ∈ fields none row, push.Whole numerals := by
  rw [← plain.blanks live row, List.forall_mem_map]
  simp only [Push.whole_blank]

/-- The fields of the row that is read after a save are as desired exactly when
the desired numbers read as themselves. -/
theorem Plain.same_iff (plain : form.Plain numerals fields)
    (shaped : Shaped kinds form.shape)
    (leaves : ∀ field ∈ form.shape, field.2 ≠ .node)
    (conforms : Conforms kinds raw) {k : Key}
    (opened : form.Opened k live raw) (other : Key) :
    (∀ push ∈ fields (some (form.parse other
        (executeAll kinds (form.diff numerals live row) raw))) row,
      push.Same) ↔ ∀ push ∈ fields none row, push.Whole numerals := by
  have done : ∀ push ∈ fields live row, push.Done numerals
      (executeAll kinds (form.diff numerals live row) raw) :=
    fun push member => form.push_done shaped leaves conforms
      (plain.among live row push member) (plain.opened_live opened row push member)
  have shown := plain.reads other
    (executeAll kinds (form.diff numerals live row) raw) row
  rw [Push.forall_done_congr ((plain.blanks live row).trans
    (plain.blanks (some (form.parse other (executeAll kinds
      (form.diff numerals live row) raw))) row).symm)] at done
  rw [← plain.whole_congr (some (form.parse other
    (executeAll kinds (form.diff numerals live row) raw)))]
  refine forall₂_congr fun push member => ?_
  exact Push.same_iff_whole (shown push member) (done push member)

end RowForm

end QuartzFire.Editing
