import Mathlib.Tactic.Tauto

/-!
# Registers

A register lists what is read at each key where there is something.  A change at
one key puts one entry in place, and takes out the one it is renamed from.
-/

namespace QuartzFire

variable {Entry Key : Type} {key : Entry → Key} {before after : List Entry}

/-- The entries are what is read at the keys that are listed. -/
structure Reads (key : Entry → Key) (listed : Key → Prop) (read : Key → Entry)
    (entries : List Entry) : Prop where
  keyed : ∀ place, key (read place) = place
  mem : ∀ entry, entry ∈ entries ↔
    listed (key entry) ∧ read (key entry) = entry

/-- One entry is put in place, the one it is renamed from goes, and the others
stay. -/
structure Placed (key : Entry → Key) (before after : List Entry)
    (old : Option Key) (new : Key) (shows : Entry → Prop) : Prop where
  there : ∃ entry, shows entry ∧
    ∀ other, other ∈ after ∧ key other = new ↔ other = entry
  others : ∀ entry, key entry ≠ new →
    (entry ∈ after ↔ entry ∈ before ∧ old ≠ some (key entry))

namespace Reads

variable {listed listed' : Key → Prop} {read read' : Key → Entry}

theorem mem_read (reads : Reads key listed read before) {place : Key} :
    read place ∈ before ↔ listed place := by
  rw [reads.mem, reads.keyed, and_iff_left rfl]

theorem eq_read (reads : Reads key listed read before) {entry : Entry}
    (member : entry ∈ before) {place : Key} (same : key entry = place) :
    read place = entry := by
  rw [← same]
  exact ((reads.mem entry).mp member).2

theorem listed_of_mem (reads : Reads key listed read before) {entry : Entry}
    (member : entry ∈ before) {place : Key} (same : key entry = place) :
    listed place :=
  same ▸ ((reads.mem entry).mp member).1

theorem congr (old : Reads key listed read before)
    (new : Reads key listed' read' after)
    (same : ∀ place, (listed' place ↔ listed place) ∧ read' place = read place)
    (entry : Entry) : entry ∈ after ↔ entry ∈ before := by
  rw [old.mem, new.mem, (same _).1, (same _).2]

/-- An entry that is edited in place is the one read there; else there is none,
if no other has its key. -/
theorem edited_or_new [DecidableEq Key] (reads : Reads key listed read before)
    {place : Key} {original : Option Key}
    (free : ∀ entry ∈ before, key entry = place → original = some place)
    {isPlace : Entry → Bool}
    (finds : ∀ entry, isPlace entry = true ↔ key entry = place) :
    (listed place ∧ original.filter (· ≠ place) = none ∧
        before.find? isPlace = some (read place)) ∨
      (¬ listed place ∧ before.find? isPlace = none) := by
  by_cases there : listed place
  · have member := reads.mem_read.mpr there
    refine .inl ⟨there, ?_, ?_⟩
    · rw [free _ member (reads.keyed place)]
      simp
    · cases found : before.find? isPlace with
      | none =>
          have missed := List.find?_eq_none.mp found _ member
          exact absurd ((finds _).mpr (reads.keyed place)) missed
      | some entry =>
          have inside := List.mem_of_find?_eq_some found
          have keyed := (finds entry).mp (List.find?_some found)
          rw [reads.eq_read inside keyed]
  · refine .inr ⟨there, List.find?_eq_none.mpr fun entry member isPlace => ?_⟩
    exact there (reads.listed_of_mem member ((finds entry).mp isPlace))

/-- With everything else as it was, it comes to what is read at the place. -/
theorem placed_iff (old : Reads key listed read before)
    (new : Reads key listed' read' after) {place : Key} {renamed : Option Key}
    {shows : Entry → Prop}
    (same : ∀ other, other ≠ place → renamed ≠ some other →
      (listed' other ↔ listed other) ∧ read' other = read other)
    (gone : ∀ other, other ≠ place → renamed = some other → ¬ listed' other) :
    Placed key before after renamed place shows ↔
      listed' place ∧ shows (read' place) := by
  constructor
  · rintro ⟨⟨entry, shown, only⟩, _⟩
    obtain ⟨member, keyed⟩ := (only entry).mpr rfl
    rw [new.eq_read member keyed]
    exact ⟨new.listed_of_mem member keyed, shown⟩
  · rintro ⟨there, shown⟩
    refine ⟨⟨read' place, shown, fun other => ⟨?_, ?_⟩⟩, ?_⟩
    · rintro ⟨member, keyed⟩
      exact (new.eq_read member keyed).symm
    · rintro rfl
      exact ⟨new.mem_read.mpr there, new.keyed place⟩
    · intro entry elsewhere
      by_cases moved : renamed = some (key entry)
      · refine iff_of_false ?_ fun kept => kept.2 moved
        intro member
        exact gone _ elsewhere moved (new.listed_of_mem member rfl)
      · rw [old.mem, new.mem, (same _ elsewhere moved).1,
          (same _ elsewhere moved).2, and_iff_left moved]

end Reads

end QuartzFire
