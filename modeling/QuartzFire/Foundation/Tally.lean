import Mathlib.Algebra.BigOperators.Group.List.Basic
import Mathlib.Algebra.Order.BigOperators.Group.List
import QuartzFire.Foundation.Table

/-!
# Tables that add up

A table has a row of an amount for each key.  Posting to a key adds to its row,
or makes the row.  The total over a set of keys grows by what is posted to the
set, and of what is kept only the kept keys count.
-/

namespace QuartzFire

abbrev Tally (Key Amount : Type) := List (Key × Amount)

namespace Tally

variable {Key Amount : Type}

section Sums

variable [AddCommMonoid Amount]

/-- Insert a row, or add to the one there is. -/
def post [DecidableEq Key] (key : Key) (amount : Amount) :
    Tally Key Amount → Tally Key Amount
  | [] => [(key, amount)]
  | (other, held) :: rest =>
      if other = key then (other, held + amount) :: rest
      else (other, held) :: post key amount rest

def keep (kept : Key → Bool) (table : Tally Key Amount) : Tally Key Amount :=
  table.filter fun row => kept row.1

/-- What the rows of a set of keys sum up to. -/
def total (within : Key → Bool) (table : Tally Key Amount) : Amount :=
  ((table.keep within).map Prod.snd).sum

@[simp] theorem total_nil (within : Key → Bool) :
    total within ([] : Tally Key Amount) = 0 := rfl

theorem total_cons (within : Key → Bool) (row : Key × Amount)
    (table : Tally Key Amount) :
    total within (row :: table) =
      (if within row.1 then row.2 else 0) + total within table := by
  cases counts : within row.1 <;> simp [total, keep, counts]

theorem total_post [DecidableEq Key] (within : Key → Bool) (key : Key)
    (amount : Amount) (table : Tally Key Amount) :
    total within (post key amount table) =
      total within table + if within key then amount else 0 := by
  induction table with
  | nil => simp [post, total_cons]
  | cons row rest ih =>
      obtain ⟨other, held⟩ := row
      rw [post]
      split
      · rename_i same
        subst same
        rw [total_cons, total_cons]
        cases within other
        · simp
        · simp only [if_true]
          rw [add_right_comm]
      · rw [total_cons, total_cons, ih, add_assoc]

theorem post_eq_writeRows [DecidableEq Key] (key : Key) (amount : Amount)
    (table : Tally Key Amount) :
    post key amount table =
      Table.writeRows key (fun held => held.elim amount (· + amount)) table := by
  induction table with
  | nil => rfl
  | cons row rest ih =>
      obtain ⟨other, held⟩ := row
      rw [post, Table.writeRows, ih]
      split
      · rename_i same
        subst same
        rfl
      · rfl

/-- Posting keeps the keys distinct. -/
theorem nodup_post [DecidableEq Key] (key : Key) (amount : Amount)
    {table : Tally Key Amount} (distinct : (table.map Prod.fst).Nodup) :
    ((post key amount table).map Prod.fst).Nodup := by
  rw [post_eq_writeRows]
  exact Table.nodup_writeRows key _ distinct

/-- What is posted of each item of a list. -/
def postAll [DecidableEq Key] {Item : Type} (key : Item → Key)
    (amount : Item → Amount) (items : List Item) : Tally Key Amount :=
  items.foldl (fun table item => post (key item) (amount item) table) []

theorem nodup_postAll [DecidableEq Key] {Item : Type} (key : Item → Key)
    (amount : Item → Amount) (items : List Item) :
    ((postAll key amount items).map Prod.fst).Nodup := by
  have held : ∀ table : Tally Key Amount, (table.map Prod.fst).Nodup →
      ((items.foldl (fun table item => post (key item) (amount item) table)
        table).map Prod.fst).Nodup := by
    induction items with
    | nil => exact fun _ distinct => distinct
    | cons item items ih =>
        intro table distinct
        exact ih _ (nodup_post _ _ distinct)
  exact held [] List.nodup_nil

@[simp] theorem total_none (table : Tally Key Amount) :
    total (fun _ => false) table = 0 := by
  simp [total, keep]

theorem total_keep (within kept : Key → Bool) (table : Tally Key Amount) :
    total within (keep kept table) =
      total (fun key => kept key && within key) table := by
  rw [total, total, keep, keep, keep, List.filter_filter]
  simp only [Bool.and_comm]

end Sums

section Ordered

variable [AddCommMonoid Amount] [PartialOrder Amount]
  [IsOrderedAddMonoid Amount]

theorem total_nonneg {within : Key → Bool} {table : Tally Key Amount}
    (positive : ∀ row ∈ table, 0 ≤ row.2) : 0 ≤ total within table := by
  refine List.sum_nonneg fun amount member => ?_
  obtain ⟨row, kept, rfl⟩ := List.mem_map.mp member
  exact positive row (List.mem_of_mem_filter kept)

theorem le_total {within : Key → Bool} {table : Tally Key Amount}
    (positive : ∀ row ∈ table, 0 ≤ row.2) {row : Key × Amount}
    (member : row ∈ table) (counts : within row.1 = true) :
    row.2 ≤ total within table := by
  refine List.single_le_sum (fun amount inside => ?_) _ ?_
  · obtain ⟨other, kept, rfl⟩ := List.mem_map.mp inside
    exact positive other (List.mem_of_mem_filter kept)
  · exact List.mem_map_of_mem (List.mem_filter.mpr ⟨member, counts⟩)

theorem nonneg_post [DecidableEq Key] {key : Key} {amount : Amount}
    {table : Tally Key Amount} (positive : ∀ row ∈ table, 0 ≤ row.2)
    (more : 0 ≤ amount) : ∀ row ∈ post key amount table, 0 ≤ row.2 := by
  induction table with
  | nil => simpa [post] using more
  | cons first rest ih =>
      obtain ⟨head, tail⟩ := List.forall_mem_cons.mp positive
      rw [post]
      split
      · exact List.forall_mem_cons.mpr ⟨add_nonneg head more, tail⟩
      · exact List.forall_mem_cons.mpr ⟨head, ih tail⟩

end Ordered

end Tally

end QuartzFire
