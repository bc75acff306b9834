import Mathlib.Data.List.Sort

/-!
# Tables

Rows with distinct keys.  A table that is written to at its bound is pruned
first: what is older than the middle of its rows goes.
-/

namespace QuartzFire

structure Table (Key Value : Type) where
  rows : List (Key × Value)
  distinct : (rows.map Prod.fst).Nodup

namespace Table

variable {Key Value : Type}

def empty : Table Key Value := ⟨[], List.nodup_nil⟩

def size (table : Table Key Value) : Nat := table.rows.length

/-- `retain` -/
def retain (kept : Key × Value → Bool) (table : Table Key Value) :
    Table Key Value :=
  ⟨table.rows.filter kept,
    table.distinct.sublist (List.filter_sublist.map Prod.fst)⟩

/-- `values_mut` -/
def mapValues (next : Value → Value) (table : Table Key Value) :
    Table Key Value :=
  ⟨table.rows.map fun row => (row.1, next row.2), by
    rw [List.map_map]
    exact table.distinct⟩

section Keys

variable [DecidableEq Key]

def get (table : Table Key Value) (key : Key) : Option Value :=
  (table.rows.find? fun row => row.1 = key).map Prod.snd

/-- `contains_key` -/
def holds (table : Table Key Value) (key : Key) : Bool :=
  (table.get key).isSome

/-- The row of the key made or made anew. -/
def writeRows (key : Key) (next : Option Value → Value) :
    List (Key × Value) → List (Key × Value)
  | [] => [(key, next none)]
  | row :: rest =>
      if row.1 = key then (key, next (some row.2)) :: rest
      else row :: writeRows key next rest

theorem keys_writeRows (key : Key) (next : Option Value → Value)
    (rows : List (Key × Value)) :
    (writeRows key next rows).map Prod.fst =
      if key ∈ rows.map Prod.fst then rows.map Prod.fst
      else rows.map Prod.fst ++ [key] := by
  induction rows with
  | nil => simp [writeRows]
  | cons row rest ih =>
      rw [writeRows]
      by_cases same : row.1 = key
      · simp [same]
      · have other : key ≠ row.1 := fun equal => same equal.symm
        rw [if_neg same, List.map_cons, ih]
        split
        · rename_i inside
          rw [if_pos (by simp [inside]), List.map_cons]
        · rename_i outside
          rw [if_neg (by simp [outside, other]), List.map_cons, List.cons_append]

theorem nodup_writeRows (key : Key) (next : Option Value → Value)
    {rows : List (Key × Value)} (distinct : (rows.map Prod.fst).Nodup) :
    ((writeRows key next rows).map Prod.fst).Nodup := by
  rw [keys_writeRows]
  split
  · exact distinct
  · rename_i outside
    rw [List.nodup_append]
    refine ⟨distinct, List.nodup_singleton key, ?_⟩
    rintro other member _ last rfl
    rw [List.mem_singleton] at last
    exact outside (last ▸ member)

/-- `entry` and `insert`: one row is written. -/
def write (key : Key) (next : Option Value → Value)
    (table : Table Key Value) : Table Key Value :=
  ⟨writeRows key next table.rows, nodup_writeRows key next table.distinct⟩

theorem find?_rows {rows : List (Key × Value)}
    (distinct : (rows.map Prod.fst).Nodup) (key : Key) (value : Value) :
    (rows.find? fun row => row.1 = key).map Prod.snd = some value ↔
      (key, value) ∈ rows := by
  induction rows with
  | nil => simp
  | cons row rest ih =>
      obtain ⟨first, held⟩ := row
      rw [List.map_cons, List.nodup_cons] at distinct
      rw [List.mem_cons, ← ih distinct.2, List.find?_cons]
      by_cases same : first = key
      · have absent : rest.find? (fun row => row.1 = key) = none := by
          rw [List.find?_eq_none]
          intro other member equal
          have inside : other.1 ∈ rest.map Prod.fst :=
            List.mem_map_of_mem member
          rw [of_decide_eq_true equal, ← same] at inside
          exact distinct.1 inside
        simp only [absent, same, decide_true, Option.map_none, Option.map_some,
          Prod.mk.injEq, true_and, reduceCtorEq, or_false, Option.some.injEq]
        exact eq_comm
      · have other : (key, value) ≠ (first, held) := by
          intro equal
          exact same (congrArg Prod.fst equal).symm
        simp only [other, same, decide_false, false_or]

theorem mem_rows {table : Table Key Value} {key : Key} {value : Value} :
    (key, value) ∈ table.rows ↔ table.get key = some value :=
  (find?_rows table.distinct key value).symm

theorem holds_iff {table : Table Key Value} {key : Key} :
    table.holds key = true ↔ ∃ value, (key, value) ∈ table.rows := by
  rw [holds, Option.isSome_iff_exists]
  exact exists_congr fun value => mem_rows.symm

theorem get_write (table : Table Key Value) (key other : Key)
    (next : Option Value → Value) :
    (table.write key next).get other =
      if other = key then some (next (table.get key)) else table.get other := by
  obtain ⟨rows, distinct⟩ := table
  unfold get write
  dsimp only
  clear distinct
  induction rows with
  | nil =>
      by_cases same : other = key
      · simp [writeRows, same]
      · simp [writeRows, same, Ne.symm same]
  | cons row rest ih =>
      rw [writeRows]
      by_cases same : row.1 = key
      · by_cases wanted : other = key
        · simp [same, wanted]
        · simp [same, wanted, Ne.symm wanted]
      · rw [if_neg same, List.find?_cons, List.find?_cons, List.find?_cons]
        by_cases wanted : row.1 = other
        · have apart : other ≠ key := wanted ▸ same
          simp [wanted, apart]
        · simp only [wanted, same, decide_false]
          exact ih

theorem size_write (table : Table Key Value) (key : Key)
    (next : Option Value → Value) :
    (table.write key next).size =
      if table.holds key then table.size else table.size + 1 := by
  have keys := congrArg List.length (keys_writeRows key next table.rows)
  have held : table.holds key = true ↔ key ∈ table.rows.map Prod.fst := by
    rw [holds_iff]
    simp
  rw [List.length_map] at keys
  unfold size write
  dsimp only
  rw [keys]
  by_cases inside : key ∈ table.rows.map Prod.fst
  · rw [if_pos inside, if_pos (held.mpr inside), List.length_map]
  · rw [if_neg inside, if_neg (mt held.mp inside), List.length_append,
      List.length_map, List.length_singleton]

theorem get_mapValues (table : Table Key Value) (next : Value → Value)
    (key : Key) :
    (table.mapValues next).get key = (table.get key).map next := by
  unfold get mapValues
  dsimp only
  rw [List.find?_map, Option.map_map, Option.map_map]
  rfl

end Keys

theorem size_retain_le (table : Table Key Value) (kept : Key × Value → Bool) :
    (table.retain kept).size ≤ table.size :=
  List.length_filter_le kept table.rows

theorem size_mapValues (table : Table Key Value) (next : Value → Value) :
    (table.mapValues next).size = table.size :=
  List.length_map _

theorem size_retain_lt {table : Table Key Value} {kept : Key × Value → Bool} :
    (table.retain kept).size < table.size ↔
      ∃ row ∈ table.rows, kept row = false := by
  unfold size retain
  rw [List.length_filter_lt_length_iff_exists]
  simp

/-! ## The middle of a list -/

section Middle

variable {Stamp : Type} [LinearOrder Stamp]

/-- The entry in the middle of the sorted list. -/
def middle (stamps : List Stamp) : Option Stamp :=
  (stamps.insertionSort (· ≤ ·))[stamps.length / 2]?

/-- At most half of the list lies below the middle, and more than half does not
lie above it. -/
theorem middle_spec {stamps : List Stamp} {cutoff : Stamp}
    (found : middle stamps = some cutoff) :
    stamps.countP (· < cutoff) ≤ stamps.length / 2 ∧
      stamps.length / 2 < stamps.countP (· ≤ cutoff) := by
  have same := List.perm_insertionSort (· ≤ ·) stamps
  have sorted := List.pairwise_insertionSort (· ≤ ·) stamps
  unfold middle at found
  generalize stamps.insertionSort (· ≤ ·) = items at same sorted found
  rw [← same.countP_eq, ← same.countP_eq, ← same.length_eq] at *
  generalize items.length / 2 = half at *
  obtain ⟨inside, at'⟩ := List.getElem?_eq_some_iff.mp found
  have split := List.take_append_drop half items
  have drop : items.drop half = cutoff :: items.drop (half + 1) := by
    rw [List.drop_eq_getElem_cons inside, at']
  rw [← split, List.pairwise_append, drop] at sorted
  obtain ⟨-, later, before⟩ := sorted
  rw [List.pairwise_cons] at later
  constructor
  · have none' : (items.drop half).countP (· < cutoff) = 0 := by
      rw [drop, List.countP_eq_zero]
      intro item member
      rw [decide_eq_true_eq, not_lt]
      rcases List.mem_cons.mp member with rfl | member
      · exact le_rfl
      · exact later.1 item member
    rw [← split, List.countP_append, none', Nat.add_zero]
    exact List.countP_le_length.trans (List.length_take_le half items)
  · have all' : (items.take half).countP (· ≤ cutoff) = half := by
      rw [List.countP_eq_length.mpr, List.length_take_of_le inside.le]
      intro item member
      exact decide_eq_true (before item member cutoff List.mem_cons_self)
    rw [← split, List.countP_append, all', drop, List.countP_cons]
    simp

end Middle

/-! ## Pruning -/

section Prune

variable {Stamp : Type} [LinearOrder Stamp] (stamp : Key × Value → Stamp)

/-- What is older than the middle goes. -/
def prune (table : Table Key Value) : Table Key Value :=
  match middle (table.rows.map stamp) with
  | none => table
  | some cutoff => table.retain fun row => decide (cutoff ≤ stamp row)

/-- More than half of the rows are of the oldest stamp. -/
def Crowded (table : Table Key Value) : Prop :=
  ∃ oldest, (∀ row ∈ table.rows, oldest ≤ stamp row) ∧
    table.size / 2 < (table.rows.map stamp).count oldest

variable {stamp}

theorem mem_of_mem_prune {table : Table Key Value} {row : Key × Value}
    (member : row ∈ (prune stamp table).rows) : row ∈ table.rows := by
  unfold prune at member
  split at member
  · exact member
  · exact List.mem_of_mem_filter member

/-- No row goes that is as recent as one that stays. -/
theorem prune_recent {table : Table Key Value} {row other : Key × Value}
    (member : row ∈ table.rows) (gone : row ∉ (prune stamp table).rows)
    (stays : other ∈ (prune stamp table).rows) : stamp row < stamp other := by
  unfold prune at gone stays
  split at gone
  · exact absurd member gone
  · rename_i cutoff found
    rw [found] at stays
    have above := (List.mem_filter.mp stays).2
    rw [decide_eq_true_eq] at above
    refine lt_of_lt_of_le ?_ above
    rw [← not_le]
    intro recent
    exact gone (List.mem_filter.mpr ⟨member, decide_eq_true recent⟩)

/-- Pruning makes room unless the oldest stamp crowds the table. -/
theorem size_prune_lt {table : Table Key Value} (some' : 0 < table.size) :
    (prune stamp table).size < table.size ↔ ¬ Crowded stamp table := by
  have inside : (table.rows.map stamp).length / 2 <
      ((table.rows.map stamp).insertionSort (· ≤ ·)).length := by
    rw [List.length_insertionSort, List.length_map]
    exact Nat.div_lt_self some' (by decide)
  obtain ⟨cutoff, found⟩ : ∃ cutoff,
      middle (table.rows.map stamp) = some cutoff :=
    ⟨_, List.getElem?_eq_getElem inside⟩
  obtain ⟨below, above⟩ := middle_spec found
  rw [List.length_map] at below above
  unfold prune
  rw [found]
  dsimp only
  rw [size_retain_lt]
  constructor
  · rintro ⟨row, member, old⟩ ⟨oldest, least, crowd⟩
    rw [decide_eq_false_iff_not, not_le] at old
    have early := lt_of_le_of_lt (least row member) old
    have fewer : (table.rows.map stamp).count oldest ≤
        (table.rows.map stamp).countP (· < cutoff) := by
      apply List.countP_mono_left
      intro item _ same
      rw [beq_iff_eq] at same
      rw [same]
      exact decide_eq_true early
    unfold size at crowd
    omega
  · intro spread
    by_contra none'
    push Not at none'
    have least : ∀ row ∈ table.rows, cutoff ≤ stamp row := by
      intro row member
      have young := none' row member
      rwa [ne_eq, Bool.not_eq_false, decide_eq_true_eq] at young
    refine spread ⟨cutoff, least, lt_of_lt_of_le above ?_⟩
    apply List.countP_mono_left
    intro item member low
    obtain ⟨row, among, rfl⟩ := List.mem_map.mp member
    rw [decide_eq_true_eq] at low
    rw [beq_iff_eq]
    exact le_antisymm low (least row among)

/-- A table of one stamp is left as it is. -/
theorem rows_prune_uniform {table : Table Key Value} {only : Stamp}
    (uniform : ∀ row ∈ table.rows, stamp row = only) :
    (prune stamp table).rows = table.rows := by
  unfold prune
  split
  · rfl
  · rename_i cutoff found
    have member : cutoff ∈ table.rows.map stamp := by
      apply (List.perm_insertionSort (· ≤ ·) _).mem_iff.mp
      exact List.mem_of_getElem? found
    obtain ⟨row, among, rfl⟩ := List.mem_map.mp member
    apply List.filter_eq_self.mpr
    intro other inside
    rw [uniform row among, uniform other inside]
    exact decide_eq_true (le_refl only)

/-! ## Writing at a bound -/

variable [DecidableEq Key] (stamp) (bound : Nat)

/-- A new row at the bound is written after pruning. -/
def writeBounded (key : Key) (next : Option Value → Value)
    (table : Table Key Value) : Table Key Value :=
  (if bound ≤ table.size ∧ table.holds key = false then prune stamp table
    else table).write key next

/-- The table is new to the key, full and crowded. -/
def Clogged (key : Key) (table : Table Key Value) : Prop :=
  table.holds key = false ∧ bound ≤ table.size ∧ Crowded stamp table

variable {stamp bound}

theorem holds_prune {table : Table Key Value} {key : Key}
    (absent : table.holds key = false) :
    (prune stamp table).holds key = false := by
  rw [← Bool.not_eq_true, holds_iff] at absent ⊢
  intro present
  obtain ⟨value, member⟩ := present
  exact absent ⟨value, mem_of_mem_prune member⟩

theorem size_writeBounded_le {table : Table Key Value} (positive : 0 < bound)
    (within : table.size ≤ bound) (key : Key) (next : Option Value → Value) :
    (writeBounded stamp bound key next table).size ≤ bound ↔
      ¬ Clogged stamp bound key table := by
  unfold writeBounded Clogged
  cases held : table.holds key with
  | true =>
      rw [if_neg (by simp), size_write, held]
      simp [within]
  | false =>
      by_cases full : bound ≤ table.size
      · have room := @size_prune_lt _ _ _ _ stamp table (by omega)
        rw [if_pos ⟨full, rfl⟩, size_write, holds_prune held]
        simp only [Bool.false_eq_true, if_false, true_and, full]
        rw [← room]
        omega
      · rw [if_neg (fun both => full both.1), size_write, held]
        simp only [Bool.false_eq_true, if_false, full, false_and, and_false,
          not_false_iff, iff_true]
        omega

theorem mem_writeBounded {table : Table Key Value} {key : Key}
    {next : Option Value → Value} {row : Key × Value}
    (member : row ∈ (writeBounded stamp bound key next table).rows) :
    (∃ held, row = (key, next held)) ∨ row ∈ table.rows := by
  obtain ⟨other, value⟩ := row
  unfold writeBounded at member
  rw [mem_rows, get_write] at member
  split at member
  · rename_i same
    cases member
    exact .inl ⟨_, by rw [same]⟩
  · rw [← mem_rows] at member
    split at member
    · exact .inr (mem_of_mem_prune member)
    · exact .inr member

/-- A table of one stamp grows past every bound. -/
theorem size_writeBounded_uniform {table : Table Key Value} {only : Stamp}
    (uniform : ∀ row ∈ table.rows, stamp row = only) {key : Key}
    (absent : table.holds key = false) (next : Option Value → Value) :
    (writeBounded stamp bound key next table).size = table.size + 1 := by
  unfold writeBounded
  rw [size_write]
  split
  · rw [holds_prune absent, if_neg Bool.false_ne_true, size, size,
      rows_prune_uniform uniform]
  · rw [absent, if_neg Bool.false_ne_true]

end Prune

end Table

end QuartzFire
