import Mathlib.Data.List.Induction
import Mathlib.Order.Bounds.Basic

/-!
# Values known from reports

Reports come one after another and each may or may not have a value for a
field.  The value known of the field is that of the last report that has one,
so that a report without a value takes nothing away.
-/

namespace QuartzFire

variable {Report Value : Type*}

/-- What the last report with a value for the field has there. -/
def lastKnown (field : Report → Option Value) (reports : List Report) :
    Option Value :=
  reports.reverse.findSome? field

section LastKnown

variable (field : Report → Option Value)

@[simp] theorem lastKnown_nil : lastKnown field [] = none := rfl

@[simp] theorem lastKnown_concat (reports : List Report) (report : Report) :
    lastKnown field (reports ++ [report]) =
      (field report).or (lastKnown field reports) := by
  rw [lastKnown, List.reverse_append, List.reverse_singleton,
    List.singleton_append, List.findSome?_cons]
  cases field report with
  | none => rfl
  | some value => rfl

theorem lastKnown_eq_getLast? (reports : List Report) :
    lastKnown field reports = (reports.filterMap field).getLast? := by
  induction reports using List.reverseRecOn with
  | nil => rfl
  | append_singleton reports report ih =>
      rw [lastKnown_concat, ih, List.filterMap_append, List.getLast?_append]
      congr 1
      cases known : field report with
      | none => simp [known]
      | some value => simp [known]

theorem lastKnown_append (earlier later : List Report) :
    lastKnown field (earlier ++ later) =
      (lastKnown field later).or (lastKnown field earlier) := by
  rw [lastKnown, List.reverse_append, List.findSome?_append]
  rfl

theorem lastKnown_congr {other : Report → Option Value} {reports : List Report}
    (same : ∀ report ∈ reports, field report = other report) :
    lastKnown field reports = lastKnown other reports := by
  induction reports using List.reverseRecOn with
  | nil => rfl
  | append_singleton reports report ih =>
      rw [lastKnown_concat, lastKnown_concat, same report (by simp),
        ih fun earlier member => same earlier (List.mem_append_left _ member)]

theorem lastKnown_flatMap {Source : Type*} (reports : Source → List Report)
    (sources : List Source) :
    lastKnown field (sources.flatMap reports) =
      lastKnown (fun source => lastKnown field (reports source)) sources := by
  induction sources using List.reverseRecOn with
  | nil => rfl
  | append_singleton sources source ih =>
      rw [List.flatMap_append, lastKnown_append, List.flatMap_singleton,
        lastKnown_concat, ih]

theorem lastKnown_eq_some {reports : List Report} {value : Value}
    (known : lastKnown field reports = some value) :
    ∃ report ∈ reports, field report = some value := by
  obtain ⟨report, member, found⟩ := List.exists_of_findSome?_eq_some known
  exact ⟨report, List.mem_reverse.mp member, found⟩

end LastKnown

/-! ## The values of all reports -/

def valuesOf (value : Report → Value) (reports : List Report) : Set Value :=
  { seen | ∃ report ∈ reports, value report = seen }

theorem valuesOf_concat (value : Report → Value) (reports : List Report)
    (report : Report) :
    valuesOf value (reports ++ [report]) =
      insert (value report) (valuesOf value reports) := by
  ext seen
  constructor
  · rintro ⟨reported, among, rfl⟩
    rcases List.mem_append.mp among with earlier | last
    · exact .inr ⟨reported, earlier, rfl⟩
    · rw [List.mem_singleton.mp last]
      exact .inl rfl
  · rintro (rfl | ⟨reported, earlier, rfl⟩)
    · exact ⟨report, by simp, rfl⟩
    · exact ⟨reported, List.mem_append_left _ earlier, rfl⟩

theorem isGreatest_singleton [Preorder Value] (value : Report → Value)
    (report : Report) : IsGreatest (valuesOf value [report]) (value report) := by
  constructor
  · exact ⟨report, List.mem_singleton_self report, rfl⟩
  · rintro seen ⟨reported, among, rfl⟩
    rw [List.mem_singleton.mp among]

theorem isGreatest_concat [LinearOrder Value] {value : Report → Value}
    {reports : List Report} {greatest : Value}
    (isGreatest : IsGreatest (valuesOf value reports) greatest)
    (report : Report) :
    IsGreatest (valuesOf value (reports ++ [report]))
      (max (value report) greatest) := by
  rw [valuesOf_concat]
  exact isGreatest.insert (value report)

/-- The first value is the least if nothing later is below it. -/
theorem isLeast_head_iff [Preorder Value] (value : Report → Value)
    (first : Report) (later : List Report) :
    IsLeast (valuesOf value (first :: later)) (value first) ↔
      ∀ report ∈ later, value first ≤ value report := by
  constructor
  · intro least report among
    exact least.2 ⟨report, List.mem_cons_of_mem first among, rfl⟩
  · intro below
    constructor
    · exact ⟨first, List.mem_cons_self, rfl⟩
    · rintro seen ⟨report, among, rfl⟩
      rcases List.mem_cons.mp among with same | among
      · rw [same]
      · exact below report among

/-! ## Entries of a list that are written over -/

/-- What a write has for an index. -/
def writtenAt (index : Nat) (write : Nat × Value) : Option Value :=
  if write.1 = index then some write.2 else none

/-- The last write of an index stands. -/
theorem getElem?_foldl_set (writes : List (Nat × Value)) (start : List Value)
    (index : Nat) :
    (writes.foldl (fun values write => values.set write.1 write.2) start)[index]? =
      start[index]?.map fun old =>
        (lastKnown (writtenAt index) writes).getD old := by
  induction writes using List.reverseRecOn with
  | nil => simp
  | append_singleton writes write ih =>
      rw [List.foldl_append, List.foldl_cons, List.foldl_nil,
        List.getElem?_set, ih, lastKnown_concat]
      unfold writtenAt
      by_cases same : write.1 = index
      · subst same
        have lengths : (writes.foldl (fun values write =>
            values.set write.1 write.2) start).length = start.length := by
          clear ih
          induction writes using List.reverseRecOn with
          | nil => rfl
          | append_singleton writes write ih =>
              rw [List.foldl_append, List.foldl_cons, List.foldl_nil,
                List.length_set, ih]
        rw [lengths]
        by_cases inside : write.1 < start.length
        · simp [inside]
        · simp [inside]
      · simp [same]

end QuartzFire
