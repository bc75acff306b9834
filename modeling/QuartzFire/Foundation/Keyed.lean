import QuartzFire.Foundation.ConfigSlice

/-!
# Rows of a node

The entries of a node are rows that are told apart by their names.  An edit
that writes at some names leaves the rows of the other names, in some order.
-/

namespace QuartzFire

section Keys

variable {Row Key : Type} [DecidableEq Key] {key : Row → Key}

/-- With keys that differ, the first row of a key is the row. -/
theorem find?_of_distinct {rows : List Row} (distinct : (rows.map key).Nodup)
    {row : Row} (member : row ∈ rows) :
    rows.find? (fun other => key other = key row) = some row := by
  induction rows with
  | nil => simp at member
  | cons first rest ih =>
      rw [List.map_cons, List.nodup_cons] at distinct
      rcases List.mem_cons.mp member with rfl | later
      · simp
      · have different : key first ≠ key row := fun same =>
          distinct.1 (same ▸ List.mem_map_of_mem later)
        rw [List.find?_cons_of_neg (by simpa using different)]
        exact ih distinct.2 later

theorem eq_of_key {rows : List Row} (distinct : (rows.map key).Nodup)
    {first second : Row} (left : first ∈ rows) (right : second ∈ rows)
    (same : key first = key second) : first = second := by
  have one := find?_of_distinct distinct left
  have other := find?_of_distinct distinct right
  rw [same] at one
  exact Option.some.inj (one.symm.trans other)

end Keys

namespace ConfigTree

variable {Name : Type} [DecidableEq Name] {kinds other : Kinds Name}
  {before after : ConfigTree Name} {changed : List Name}

omit [DecidableEq Name] in
theorem Conforms.nodup_entries (conforms : Conforms kinds before) :
    before.entries.Nodup :=
  conforms.distinct.of_map

/-- The rows that are not written stay. -/
theorem Conforms.entries_kept (old : Conforms kinds before)
    (new : Conforms other after)
    (kept : ∀ key ∉ changed, after.child key = before.child key)
    (gone : ∀ key ∈ changed, after.child key = none) :
    after.entries.Perm (before.entries.filter (·.1 ∉ changed)) := by
  refine (List.perm_ext_iff_of_nodup new.nodup_entries
    (old.nodup_entries.filter _)).mpr ?_
  rintro ⟨key, tree⟩
  rw [List.mem_filter, decide_eq_true_eq, old.mem_entries, new.mem_entries]
  by_cases written : key ∈ changed
  · simp [gone key written, written]
  · simp [kept key written, written]

/-- One of the written rows is there, beside those that are not written. -/
theorem Conforms.entries_put (old : Conforms kinds before)
    (new : Conforms other after)
    (kept : ∀ key ∉ changed, after.child key = before.child key)
    {key : Name} {tree : ConfigTree Name} (found : after.child key = some tree)
    (among : key ∈ changed)
    (gone : ∀ other ∈ changed, other ≠ key → after.child other = none) :
    after.entries.Perm
      ((key, tree) :: before.entries.filter (·.1 ∉ changed)) := by
  refine (List.perm_ext_iff_of_nodup new.nodup_entries ?_).mpr ?_
  · refine List.nodup_cons.mpr ⟨?_, old.nodup_entries.filter _⟩
    simp [among]
  · rintro ⟨name, row⟩
    rw [List.mem_cons, List.mem_filter, decide_eq_true_eq, old.mem_entries,
      new.mem_entries]
    by_cases written : name ∈ changed
    · by_cases same : name = key
      · subst same
        simp [found, written, eq_comm]
      · simp [gone name written same, same, written]
    · have different : name ≠ key := fun same => written (same ▸ among)
      simp [kept name written, written, different]

end ConfigTree

end QuartzFire
