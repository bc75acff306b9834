import Mathlib.Data.List.Basic
import Mathlib.Data.List.TakeWhile

/-!
# Blanks around a list

What trimming drops at both ends, for any notion of a blank.
-/

namespace QuartzFire

variable {Symbol : Type*} (blank : Symbol → Bool)

/-- Without the blanks at both ends. -/
def trimBy (text : List Symbol) : List Symbol :=
  ((text.dropWhile blank).reverse.dropWhile blank).reverse

variable {blank}

theorem dropWhile_eq_self {text : List Symbol} :
    text.dropWhile blank = text ↔
      ∀ symbol, text.head? = some symbol → blank symbol = false := by
  cases text with
  | nil => simp
  | cons symbol rest =>
      cases drops : blank symbol with
      | true =>
          rw [List.dropWhile_cons_of_pos drops]
          constructor
          · intro same
            have shorter := (List.dropWhile_suffix (l := rest) blank).length_le
            rw [same, List.length_cons] at shorter
            omega
          · intro stays
            have stays' := stays symbol rfl
            rw [drops] at stays'
            cases stays'
      | false =>
          rw [List.dropWhile_cons_of_neg (by rw [drops]; exact Bool.false_ne_true)]
          refine iff_of_true rfl fun other same => ?_
          rw [← Option.some.inj same]
          exact drops

theorem trimBy_of_ends {text : List Symbol}
    (head : ∀ symbol, text.head? = some symbol → blank symbol = false)
    (last : ∀ symbol, text.getLast? = some symbol → blank symbol = false) :
    trimBy blank text = text := by
  rw [trimBy, dropWhile_eq_self.mpr head, dropWhile_eq_self.mpr,
    List.reverse_reverse]
  intro symbol same
  rw [List.head?_reverse] at same
  exact last symbol same

theorem trimBy_eq_nil {text : List Symbol} :
    trimBy blank text = [] ↔ ∀ symbol ∈ text, blank symbol = true := by
  rw [trimBy, List.reverse_eq_nil_iff, List.dropWhile_eq_nil_iff]
  constructor
  · intro covered symbol member
    by_contra dark
    cases rest : text.dropWhile blank with
    | nil => exact dark (List.dropWhile_eq_nil_iff.mp rest symbol member)
    | cons first later =>
        have dark' := List.head?_dropWhile_not blank text
        have white := covered first (List.mem_reverse.mpr
          (rest ▸ List.mem_cons_self))
        simp [rest, white] at dark'
  · intro covered symbol member
    rw [List.dropWhile_eq_nil_iff.mpr covered] at member
    cases member

/-- Trimming drops blanks only. -/
theorem mem_trimBy {text : List Symbol} {symbol : Symbol}
    (dark : blank symbol = false) :
    symbol ∈ trimBy blank text ↔ symbol ∈ text := by
  have kept : ∀ text : List Symbol,
      symbol ∈ text.dropWhile blank ↔ symbol ∈ text := by
    intro text
    refine ⟨(List.dropWhile_suffix blank).mem, fun member => ?_⟩
    rw [← List.takeWhile_append_dropWhile (p := blank) (l := text)] at member
    rcases List.mem_append.mp member with front | back
    · have white := List.mem_takeWhile_imp front
      rw [dark] at white
      cases white
    · exact back
  rw [trimBy, List.mem_reverse, kept, List.mem_reverse, kept]

theorem mem_of_mem_trimBy {text : List Symbol} {symbol : Symbol}
    (member : symbol ∈ trimBy blank text) : symbol ∈ text := by
  have inside := (List.dropWhile_suffix blank).mem (List.mem_reverse.mp member)
  exact (List.dropWhile_suffix blank).mem (List.mem_reverse.mp inside)

theorem head_of_trimBy {text : List Symbol} (trimmed : trimBy blank text = text)
    (symbol : Symbol) (same : text.head? = some symbol) :
    blank symbol = false := by
  refine dropWhile_eq_self.mp ?_ symbol same
  refine (List.dropWhile_suffix blank).eq_of_length_le ?_
  have shorter := (List.dropWhile_suffix (l := (text.dropWhile blank).reverse)
    blank).length_le
  have whole := congrArg List.length trimmed
  rw [trimBy, List.length_reverse] at whole
  rw [List.length_reverse] at shorter
  omega

theorem last_of_trimBy {text : List Symbol} (trimmed : trimBy blank text = text)
    (symbol : Symbol) (same : text.getLast? = some symbol) :
    blank symbol = false := by
  have front : text.dropWhile blank = text :=
    dropWhile_eq_self.mpr (head_of_trimBy trimmed)
  rw [trimBy, front] at trimmed
  have back : text.reverse.dropWhile blank = text.reverse :=
    List.reverse_eq_iff.mp trimmed
  apply dropWhile_eq_self.mp back
  rw [List.head?_reverse]
  exact same

theorem trimBy_cons {text : List Symbol} {symbol : Symbol}
    (white : blank symbol = true) :
    trimBy blank (symbol :: text) = trimBy blank text := by
  rw [trimBy, List.dropWhile_cons_of_pos white, trimBy]

/-- What begins a text is not trimmed unless it is a blank. -/
theorem trimBy_cons_of_dark {text : List Symbol} {symbol : Symbol}
    (dark : blank symbol = false) :
    ∃ rest, trimBy blank (symbol :: text) = symbol :: rest := by
  have stays : ¬ blank symbol = true := by
    rw [dark]
    exact Bool.false_ne_true
  rw [trimBy, List.dropWhile_cons_of_neg stays, List.reverse_cons,
    List.dropWhile_append]
  split
  · rw [List.dropWhile_cons_of_neg stays]
    exact ⟨[], rfl⟩
  · rw [List.reverse_append]
    exact ⟨_, rfl⟩

theorem trimBy_concat {text : List Symbol} {symbol : Symbol}
    (white : blank symbol = true) :
    trimBy blank (text ++ [symbol]) = trimBy blank text := by
  rw [trimBy, trimBy, List.dropWhile_append]
  split
  · rename_i empty
    rw [List.isEmpty_iff.mp empty, List.dropWhile_cons_of_pos white]
    rfl
  · rw [List.reverse_append, List.reverse_singleton, List.singleton_append,
      List.dropWhile_cons_of_pos white]

end QuartzFire
