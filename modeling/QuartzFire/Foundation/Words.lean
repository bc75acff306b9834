import QuartzFire.Foundation.Text

/-!
# Words and fields

A line of words set apart by blanks, some of them fields `key=value`: what is
read back of a line that was put together from words, and the values of a key in
order.
-/

namespace QuartzFire

section Words

variable {Symbol : Type*} {blank : Symbol → Bool}

/-- Not empty and without a blank. -/
structure IsWord (blank : Symbol → Bool) (word : List Symbol) : Prop where
  nonempty : word ≠ []
  dark : ∀ symbol ∈ word, blank symbol = false

/-- The words between the blanks. -/
def wordsOf (blank : Symbol → Bool) (text : List Symbol) : List (List Symbol) :=
  (text.splitOnP blank).filter (· ≠ [])

theorem wordsOf_word {word : List Symbol} (whole : IsWord blank word) :
    wordsOf blank word = [word] := by
  rw [wordsOf, List.splitOnP_eq_singleton whole.dark]
  simp [whole.nonempty]

theorem wordsOf_append_cons {front back : List Symbol} {symbol : Symbol}
    (white : blank symbol = true) :
    wordsOf blank (front ++ symbol :: back) =
      wordsOf blank front ++ wordsOf blank back := by
  rw [wordsOf, List.splitOnP_append_cons front back white, List.filter_append,
    wordsOf, wordsOf]

/-- Words joined by a blank are read back. -/
theorem wordsOf_intercalate {symbol : Symbol} (white : blank symbol = true)
    {words : List (List Symbol)} (whole : ∀ word ∈ words, IsWord blank word) :
    wordsOf blank ([symbol].intercalate words) = words := by
  induction words with
  | nil => simp [wordsOf]
  | cons word rest ih =>
      rw [List.forall_mem_cons] at whole
      cases rest with
      | nil =>
          rw [List.intercalate_singleton]
          exact wordsOf_word whole.1
      | cons next rest =>
          rw [List.intercalate_cons_cons, List.append_assoc,
            List.singleton_append, wordsOf_append_cons white, ih whole.2,
            wordsOf_word whole.1, List.singleton_append]

end Words

/-! ## Where a mark stands first or last -/

theorem splitOnce_unique {mark : Char} {front front' back back' : List Char}
    (same : front ++ mark :: back = front' ++ mark :: back')
    (first : mark ∉ front) (first' : mark ∉ front') :
    front = front' ∧ back = back' := by
  have split := splitOnce_eq_some.mpr ⟨same, first'⟩
  rw [splitOnce_eq_some.mpr ⟨rfl, first⟩] at split
  cases split
  exact ⟨rfl, rfl⟩

theorem rsplitOnce_unique {mark : Char} {front front' back back' : List Char}
    (same : front ++ mark :: back = front' ++ mark :: back')
    (last : mark ∉ back) (last' : mark ∉ back') :
    front = front' ∧ back = back' := by
  have split := rsplitOnce_eq_some.mpr ⟨same, last'⟩
  rw [rsplitOnce_eq_some.mpr ⟨rfl, last⟩] at split
  cases split
  exact ⟨rfl, rfl⟩

/-! ## Fields -/

def field (key value : List Char) : List Char :=
  key ++ '=' :: value

/-- The values of a key in the order of the words. -/
def fieldValues (key : List Char) (words : List (List Char)) :
    List (List Char) :=
  words.filterMap fun word =>
    (splitOnce '=' word).bind fun parts =>
      if parts.1 = key then some parts.2 else none

section Values

variable {key : List Char}

@[simp] theorem fieldValues_nil : fieldValues key [] = [] := rfl

@[simp] theorem fieldValues_append (front back : List (List Char)) :
    fieldValues key (front ++ back) =
      fieldValues key front ++ fieldValues key back :=
  List.filterMap_append

theorem fieldValues_cons_of_split {word name value : List Char}
    (split : splitOnce '=' word = some (name, value))
    (rest : List (List Char)) :
    fieldValues key (word :: rest) =
      if name = key then value :: fieldValues key rest
      else fieldValues key rest := by
  unfold fieldValues
  rw [List.filterMap_cons, split, Option.bind_some]
  dsimp only
  by_cases same : name = key
  · rw [if_pos same, if_pos same]
  · rw [if_neg same, if_neg same]

theorem fieldValues_cons_of_plain {word : List Char} (plain : '=' ∉ word)
    (rest : List (List Char)) :
    fieldValues key (word :: rest) = fieldValues key rest := by
  unfold fieldValues
  rw [List.filterMap_cons, splitOnce_eq_none.mpr plain]
  rfl

theorem splitOnce_field {name value : List Char} (plain : '=' ∉ name) :
    splitOnce '=' (field name value) = some (name, value) :=
  splitOnce_eq_some.mpr ⟨rfl, plain⟩

theorem fieldValues_cons_field {name value : List Char} (plain : '=' ∉ name)
    (rest : List (List Char)) :
    fieldValues key (field name value :: rest) =
      if name = key then value :: fieldValues key rest
      else fieldValues key rest :=
  fieldValues_cons_of_split (splitOnce_field plain) rest

end Values

theorem fieldValues_of_plain {key : List Char} {words : List (List Char)}
    (plain : ∀ word ∈ words, '=' ∉ word) : fieldValues key words = [] := by
  induction words with
  | nil => rfl
  | cons word rest ih =>
      rw [List.forall_mem_cons] at plain
      rw [fieldValues_cons_of_plain plain.1, ih plain.2]

/-- A text without a blank. -/
def IsDark (blank : Char → Bool) (text : List Char) : Prop :=
  text.all (fun char => !blank char) = true

theorem IsDark.isWord {blank : Char → Bool} {word : List Char}
    (dark : IsDark blank word) (nonempty : word ≠ []) : IsWord blank word := by
  refine ⟨nonempty, ?_⟩
  intro char member
  have plain := List.all_eq_true.mp dark char member
  rwa [Bool.not_eq_true'] at plain

theorem not_isWhitespace_of_alphanum {char : Char}
    (plain : char.isAlphanum = true) : isWhitespace char = false := by
  change (decide ('A'.val ≤ char.val ∧ char.val ≤ 'Z'.val) ||
    decide ('a'.val ≤ char.val) && decide (char.val ≤ 'z'.val) ||
    decide ('0'.val ≤ char.val) && decide (char.val ≤ '9'.val)) = true at plain
  simp only [Bool.or_eq_true, Bool.and_eq_true, decide_eq_true_eq,
    UInt32.le_iff_toNat_le] at plain
  simp only [isWhitespace, List.mem_cons, List.not_mem_nil, or_false,
    ← UInt32.toNat_inj, UInt32.le_iff_toNat_le, Bool.or_eq_false_iff,
    Bool.and_eq_false_iff, decide_eq_false_iff_not]
  simp at plain ⊢
  omega

theorem isWord_field {blank : Char → Bool} {key value : List Char}
    (mark : blank '=' = false) (keys : IsDark blank key)
    (values : IsDark blank value) : IsWord blank (field key value) := by
  apply IsDark.isWord
  · unfold IsDark field
    rw [List.all_append, List.all_cons, mark]
    exact Bool.and_eq_true_iff.mpr ⟨keys, values⟩
  · unfold field
    simp

end QuartzFire
