import Mathlib.Data.List.Basic
import Mathlib.Data.List.Nodup

/-!
# Replacing the first match of each key

Lines name keys.  Each item replaces the first line that names its key, or
comes last where none does.  Items one after another do what a single walk over
the lines does with all of them.
-/

namespace QuartzFire.FirstMatch

variable {Line Key Item : Type*} [DecidableEq Key]
  (token : Line → Key) (key : Item → Key) (render : Item → Line)

def replaceFirst (item : Item) : List Line → List Line
  | [] => [render item]
  | line :: rest =>
      if token line = key item then render item :: rest
      else line :: replaceFirst item rest

/-- The item whose key the line names. -/
def named (items : List Item) (line : Line) : Option Item :=
  items.find? fun item => decide (key item = token line)

def others (items : List Item) (line : Line) : List Item :=
  items.filter fun item => decide (key item ≠ token line)

/-- The lines no item replaces. -/
def left : List Item → List Line → List Line
  | _, [] => []
  | items, line :: rest =>
      let later := left (others token key items line) rest
      if (named token key items line).isSome then later else line :: later

/-- The lines that items replace. -/
def taken : List Item → List Line → List Line
  | _, [] => []
  | items, line :: rest =>
      let later := taken (others token key items line) rest
      if (named token key items line).isSome then line :: later else later

/-- All items in one walk. -/
def replaceAll : List Item → List Line → List Line
  | items, [] => items.map render
  | items, line :: rest =>
      ((named token key items line).elim line render) ::
        replaceAll (others token key items line) rest

variable {token key render}

theorem named_eq_none {items : List Item} {line : Line} :
    named token key items line = none ↔
      ∀ item ∈ items, key item ≠ token line := by
  simp [named]

theorem others_of_named_none {items : List Item} {line : Line}
    (absent : named token key items line = none) :
    others token key items line = items := by
  apply List.filter_eq_self.mpr
  intro item member
  exact decide_eq_true (named_eq_none.mp absent item member)

theorem named_some {items : List Item} {line : Line} {item : Item}
    (found : named token key items line = some item) :
    item ∈ items ∧ key item = token line := by
  have found' : items.find? (fun item => decide (key item = token line)) =
      some item := found
  have holds := @List.find?_some _ _ _ _ found'
  exact ⟨List.mem_of_find?_eq_some found', of_decide_eq_true holds⟩

theorem mem_others {items : List Item} {line : Line} {item : Item} :
    item ∈ others token key items line ↔
      item ∈ items ∧ key item ≠ token line := by
  rw [others, List.mem_filter, decide_eq_true_eq]

theorem distinct_others {items : List Item} (distinct : (items.map key).Nodup)
    (line : Line) : ((others token key items line).map key).Nodup :=
  distinct.sublist ((List.filter_sublist).map key)

section Distinct

variable (own : ∀ item, token (render item) = key item)

include own

/-- With one item more there is one line more to name it first. -/
theorem replaceAll_cons {item : Item} {items : List Item}
    (distinct : ((item :: items).map key).Nodup) (lines : List Line) :
    replaceAll token key render (item :: items) lines =
      replaceAll token key render items
        (replaceFirst token key render item lines) := by
  rw [List.map_cons, List.nodup_cons] at distinct
  have apart : ∀ other ∈ items, key other ≠ key item := by
    intro other member same
    exact distinct.1 (List.mem_map.mpr ⟨other, member, same⟩)
  induction lines generalizing items with
  | nil =>
      have absent : named token key items (render item) = none :=
        named_eq_none.mpr fun other member => by
          rw [own]
          exact apart other member
      rw [replaceFirst, replaceAll, replaceAll, absent,
        others_of_named_none absent]
      rfl
  | cons line rest ih =>
      rw [replaceFirst]
      split
      · rename_i names
        have absent : named token key items (render item) = none :=
          named_eq_none.mpr fun other member => by
            rw [own]
            exact apart other member
        have absent' : named token key items line = none :=
          named_eq_none.mpr fun other member => by
            rw [names]
            exact apart other member
        have first : named token key (item :: items) line = some item :=
          List.find?_cons_of_pos (decide_eq_true names.symm)
        have later : others token key (item :: items) line = items := by
          rw [others, List.filter_cons_of_neg (by simp [names])]
          exact others_of_named_none absent'
        rw [replaceAll, replaceAll, first, later, absent,
          others_of_named_none absent]
        rfl
      · rename_i other
        have first : named token key (item :: items) line =
            named token key items line :=
          List.find?_cons_of_neg (by simpa using Ne.symm other)
        have later : others token key (item :: items) line =
            item :: others token key items line :=
          List.filter_cons_of_pos (decide_eq_true (Ne.symm other))
        have inside : ∀ other ∈ others token key items line, other ∈ items :=
          fun other member => (mem_others.mp member).1
        have rest' := @ih (others token key items line)
          ⟨fun member => distinct.1 (((List.filter_sublist).map key).mem member),
            distinct_others distinct.2 line⟩
          (fun other member => apart other (inside other member))
        rw [replaceAll, replaceAll, first, later, rest']

/-- One item after another. -/
theorem foldl_replaceFirst {items : List Item}
    (distinct : (items.map key).Nodup) (lines : List Line) :
    items.foldl (fun lines item => replaceFirst token key render item lines)
      lines = replaceAll token key render items lines := by
  induction items generalizing lines with
  | nil =>
      induction lines with
      | nil => rfl
      | cons line rest ih => exact congrArg (line :: ·) ih
  | cons item items ih =>
      rw [List.foldl_cons, replaceAll_cons own distinct]
      exact ih (List.nodup_cons.mp distinct).2 _

end Distinct

/-! ## What is replaced and what is left -/

theorem left_perm_taken (items : List Item) (lines : List Line) :
    (left token key items lines ++ taken token key items lines).Perm lines := by
  induction lines generalizing items with
  | nil => exact .refl []
  | cons line rest ih =>
      rw [left, taken]
      split
      · exact List.perm_middle.trans ((ih _).cons line)
      · exact (ih _).cons line

theorem left_sublist (items : List Item) (lines : List Line) :
    (left token key items lines).Sublist lines := by
  induction lines generalizing items with
  | nil => exact .refl []
  | cons line rest ih =>
      rw [left]
      split
      · exact (ih _).cons line
      · exact (ih _).cons_cons line

/-- A predicate's lines are all left if and only if none of them is taken. -/
theorem filter_left_eq_iff {keep : Line → Bool} {items : List Item}
    {lines : List Line} :
    (left token key items lines).filter keep = lines.filter keep ↔
      ∀ line ∈ taken token key items lines, keep line = false := by
  have counts := ((@left_perm_taken _ _ _ _ token key items lines).filter
    keep).length_eq
  rw [List.filter_append, List.length_append] at counts
  constructor
  · intro same line member
    rw [same] at counts
    have none : (taken token key items lines).filter keep = [] :=
      List.eq_nil_of_length_eq_zero (by omega)
    exact Bool.eq_false_iff.mpr (List.filter_eq_nil_iff.mp none line member)
  · intro none
    have empty : (taken token key items lines).filter keep = [] :=
      List.filter_eq_nil_iff.mpr fun line member =>
        Bool.eq_false_iff.mp (none line member)
    rw [empty] at counts
    apply ((left_sublist items lines).filter keep).eq_of_length
    simpa using counts

/-- A line is left unless it is the first to name an item. -/
theorem mem_left {line : Line} {items : List Item} {lines : List Line} :
    line ∈ left token key items lines ↔
      ∃ front back, lines = front ++ line :: back ∧
        ∀ item ∈ items, key item = token line →
          ∃ earlier ∈ front, token earlier = token line := by
  induction lines generalizing items with
  | nil => simp [left]
  | cons first rest ih =>
      have later : line ∈ left token key (others token key items first) rest ↔
          ∃ front back, rest = front ++ line :: back ∧
            ∀ item ∈ items, key item = token line →
              ∃ earlier ∈ first :: front, token earlier = token line := by
        rw [ih]
        refine exists₂_congr fun front back => and_congr_right fun _ => ?_
        constructor
        · intro covered item member names
          by_cases same : token first = token line
          · exact ⟨first, List.mem_cons_self, same⟩
          · obtain ⟨earlier, inside, names'⟩ := covered item
              (mem_others.mpr ⟨member, fun own => same (own.symm.trans names)⟩)
              names
            exact ⟨earlier, List.mem_cons_of_mem _ inside, names'⟩
        · intro covered item member names
          obtain ⟨member, other⟩ := mem_others.mp member
          obtain ⟨earlier, inside, names'⟩ := covered item member names
          rcases List.mem_cons.mp inside with rfl | inside
          · exact absurd (names.trans names'.symm) other
          · exact ⟨earlier, inside, names'⟩
      have whole : (∃ front back, first :: rest = front ++ line :: back ∧
            ∀ item ∈ items, key item = token line →
              ∃ earlier ∈ front, token earlier = token line) ↔
          (first = line ∧ named token key items first = none) ∨
          ∃ front back, rest = front ++ line :: back ∧
            ∀ item ∈ items, key item = token line →
              ∃ earlier ∈ first :: front, token earlier = token line := by
        constructor
        · rintro ⟨front, back, same, covered⟩
          cases front with
          | nil =>
              obtain ⟨rfl, rfl⟩ := List.cons.inj same
              refine .inl ⟨rfl, named_eq_none.mpr fun item member names => ?_⟩
              obtain ⟨_, inside, _⟩ := covered item member names
              cases inside
          | cons head front =>
              obtain ⟨rfl, rfl⟩ := List.cons.inj same
              exact .inr ⟨front, back, rfl, covered⟩
        · rintro (⟨rfl, absent⟩ | ⟨front, back, rfl, covered⟩)
          · exact ⟨[], rest, rfl, fun item member names =>
              absurd names (named_eq_none.mp absent item member)⟩
          · exact ⟨first :: front, back, rfl, covered⟩
      rw [whole, left]
      split
      · rename_i found
        rw [later]
        constructor
        · exact .inr
        · rintro (⟨-, absent⟩ | there)
          · rw [absent] at found
            cases found
          · exact there
      · rename_i missing
        rw [List.mem_cons, later]
        refine or_congr_left ?_
        constructor
        · rintro rfl
          exact ⟨rfl, Option.not_isSome_iff_eq_none.mp missing⟩
        · rintro ⟨rfl, -⟩
          rfl

/-- A taken line is the first to name some item. -/
theorem mem_taken {line : Line} {items : List Item} {lines : List Line} :
    line ∈ taken token key items lines ↔
      ∃ item ∈ items,
        lines.find? (fun line => decide (token line = key item)) =
          some line := by
  induction lines generalizing items with
  | nil => simp [taken]
  | cons first rest ih =>
      have later : line ∈ taken token key (others token key items first) rest ↔
          ∃ item ∈ items, token first ≠ key item ∧
            rest.find? (fun line => decide (token line = key item)) =
              some line := by
        rw [ih]
        refine exists_congr fun item => ?_
        rw [mem_others]
        constructor
        · rintro ⟨⟨member, other⟩, found⟩
          exact ⟨member, Ne.symm other, found⟩
        · rintro ⟨member, other, found⟩
          exact ⟨⟨member, Ne.symm other⟩, found⟩
      have whole : (∃ item ∈ items, (first :: rest).find?
            (fun line => decide (token line = key item)) = some line) ↔
          (first = line ∧ named token key items first ≠ none) ∨
          line ∈ taken token key (others token key items first) rest := by
        rw [later]
        constructor
        · rintro ⟨item, member, found⟩
          by_cases names : token first = key item
          · rw [List.find?_cons, decide_eq_true names] at found
            refine .inl ⟨Option.some.inj found, fun absent => ?_⟩
            exact named_eq_none.mp absent item member names.symm
          · rw [List.find?_cons, decide_eq_false names] at found
            exact .inr ⟨item, member, names, found⟩
        · rintro (⟨rfl, present⟩ | ⟨item, member, other, found⟩)
          · obtain ⟨item, found⟩ := Option.ne_none_iff_exists'.mp present
            obtain ⟨member, names⟩ := named_some found
            refine ⟨item, member, ?_⟩
            rw [List.find?_cons, decide_eq_true names.symm]
          · refine ⟨item, member, ?_⟩
            rw [List.find?_cons, decide_eq_false other]
            exact found
      rw [whole, taken]
      split
      · rename_i found
        rw [List.mem_cons]
        refine or_congr_left ?_
        constructor
        · rintro rfl
          exact ⟨rfl, Option.isSome_iff_ne_none.mp found⟩
        · rintro ⟨rfl, -⟩
          rfl
      · rename_i missing
        constructor
        · exact .inr
        · rintro (⟨-, present⟩ | there)
          · exact absurd (Option.not_isSome_iff_eq_none.mp missing) present
          · exact there

/-! ## The walk as a whole -/

theorem replaceAll_ne_nil {items : List Item} {lines : List Line} :
    replaceAll token key render items lines ≠ [] ↔
      items ≠ [] ∨ lines ≠ [] := by
  cases lines with
  | nil => simp [replaceAll]
  | cons line rest => simp [replaceAll]

theorem filter_replaceAll {keep : Line → Bool} {items : List Item}
    (drops : ∀ item ∈ items, keep (render item) = false) (lines : List Line) :
    (replaceAll token key render items lines).filter keep =
      (left token key items lines).filter keep := by
  induction lines generalizing items with
  | nil =>
      refine List.filter_eq_nil_iff.mpr fun line member => ?_
      obtain ⟨item, inside, rfl⟩ := List.mem_map.mp member
      exact Bool.eq_false_iff.mp (drops item inside)
  | cons line rest ih =>
      have later := @ih (others token key items line)
        fun item member => drops item (mem_others.mp member).1
      rw [replaceAll, left]
      cases found : named token key items line with
      | none =>
          change List.filter keep (line :: _) = List.filter keep (line :: _)
          rw [List.filter_cons, later, ← List.filter_cons]
      | some item =>
          have dropped := drops item (named_some found).1
          change List.filter keep (render item :: _) = List.filter keep _
          rw [List.filter_cons, dropped]
          exact later

section Once

variable (own : ∀ item, token (render item) = key item)

theorem named_own {item : Item} {items : List Item}
    (distinct : (items.map key).Nodup) (member : item ∈ items) {line : Line}
    (names : key item = token line) :
    named token key items line = some item := by
  induction items with
  | nil => cases member
  | cons head tail ih =>
      rw [List.map_cons, List.nodup_cons] at distinct
      rw [named, List.find?_cons]
      by_cases first : key head = token line
      · rw [decide_eq_true first]
        rcases List.mem_cons.mp member with rfl | later
        · rfl
        · refine absurd ?_ distinct.1
          rw [first, ← names]
          exact List.mem_map_of_mem later
      · rw [decide_eq_false first]
        rcases List.mem_cons.mp member with rfl | later
        · exact absurd names first
        · exact ih distinct.2 later

theorem perm_cons_others {item : Item} {items : List Item}
    (distinct : (items.map key).Nodup) (member : item ∈ items) {line : Line}
    (names : key item = token line) :
    items.Perm (item :: others token key items line) := by
  induction items with
  | nil => cases member
  | cons head tail ih =>
      rw [List.map_cons, List.nodup_cons] at distinct
      by_cases first : key head = token line
      · have alone : ∀ other ∈ tail, key other ≠ token line := by
          intro other inside same
          apply distinct.1
          rw [first, ← same]
          exact List.mem_map_of_mem inside
        rw [others, List.filter_cons_of_neg (by simp [first]),
          List.filter_eq_self.mpr fun other inside =>
            decide_eq_true (alone other inside)]
        rcases List.mem_cons.mp member with rfl | later
        · exact .refl _
        · exact absurd names (alone item later)
      · rw [others, List.filter_cons_of_pos (by simpa using first)]
        rcases List.mem_cons.mp member with rfl | later
        · exact absurd names first
        · exact ((ih distinct.2 later).cons head).trans (.swap _ _ _)

/-- Each item's line is there once, with the lines that no item replaces. -/
theorem replaceAll_perm {items : List Item} (distinct : (items.map key).Nodup)
    (lines : List Line) :
    (replaceAll token key render items lines).Perm
      (items.map render ++ left token key items lines) := by
  induction lines generalizing items with
  | nil => simp [replaceAll, left]
  | cons line rest ih =>
      have later := @ih (others token key items line)
        (distinct_others distinct line)
      rw [replaceAll, left]
      cases found : named token key items line with
      | none =>
          rw [others_of_named_none found] at later ⊢
          exact (later.cons line).trans List.perm_middle.symm
      | some item =>
          obtain ⟨member, names⟩ := named_some found
          have parts := perm_cons_others distinct member names
          refine (later.cons (render item)).trans ?_
          exact ((parts.map render).symm.append_right _)

include own in
theorem replaceAll_replaceAll {items : List Item}
    (distinct : (items.map key).Nodup) (lines : List Line) :
    replaceAll token key render items
        (replaceAll token key render items lines) =
      replaceAll token key render items lines := by
  induction lines generalizing items with
  | nil =>
      change replaceAll token key render items (items.map render) =
        items.map render
      induction items with
      | nil => rfl
      | cons item items ih =>
          have first : named token key (item :: items) (render item) =
              some item :=
            named_own distinct List.mem_cons_self (own item).symm
          rw [List.map_cons, List.nodup_cons] at distinct
          have later : others token key (item :: items) (render item) =
              items := by
            rw [others, List.filter_cons_of_neg (by simp [own]),
              List.filter_eq_self]
            intro other member
            rw [own]
            refine decide_eq_true fun same => distinct.1 ?_
            exact same ▸ List.mem_map_of_mem member
          rw [List.map_cons, replaceAll, first, later, ih distinct.2]
          rfl
  | cons line rest ih =>
      have later := @ih (others token key items line)
        (distinct_others distinct line)
      rw [replaceAll]
      cases found : named token key items line with
      | none =>
          change replaceAll token key render items (line :: _) = line :: _
          rw [replaceAll, found, later]
          rfl
      | some item =>
          obtain ⟨member, names⟩ := named_some found
          have again : named token key items (render item) = some item :=
            named_own distinct member (own item).symm
          have same : others token key items (render item) =
              others token key items line := by
            rw [others, others, own, names]
          change replaceAll token key render items (render item :: _) =
            render item :: _
          rw [replaceAll, again, same, later]
          rfl

/-- Where the walk undoes a change of the lines, it replaced what changed. -/
theorem of_replaceAll_map_eq {change : Line → Line} {items : List Item}
    {lines : List Line}
    (undone : replaceAll token key render items (lines.map change) = lines) :
    ∀ line ∈ lines, change line = line ∨
      ∃ item ∈ items, line = render item := by
  induction lines generalizing items with
  | nil => simp
  | cons first rest ih =>
      rw [List.map_cons, replaceAll] at undone
      obtain ⟨head, tail⟩ := List.cons.inj undone
      rw [List.forall_mem_cons]
      constructor
      · cases found : named token key items (change first) with
        | none =>
            rw [found] at head
            exact .inl head
        | some item =>
            rw [found] at head
            exact .inr ⟨item, (named_some found).1, head.symm⟩
      · intro line member
        rcases ih tail line member with same | ⟨item, inside, rendered⟩
        · exact .inl same
        · exact .inr ⟨item, (mem_others.mp inside).1, rendered⟩

end Once

end QuartzFire.FirstMatch
