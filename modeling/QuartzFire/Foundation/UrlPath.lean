import Mathlib.Data.List.Induction
import Mathlib.Data.List.TakeWhile

/-!
# Paths of URLs

What becomes of a path on its way to a server: the client resolves dot segments
as the URL standard says for a special scheme, the server decodes the percent
escapes and merges repeated slashes.  What the client itself escapes the server
reads back, so that step is left out.
-/

namespace QuartzFire.UrlPath

/-! ## The client -/

def isSeparator (char : Char) : Bool :=
  char = '/' || char = '\\'

def isSingleDot (segment : List Char) : Bool :=
  segment ∈ [".".toList, "%2e".toList, "%2E".toList]

def isDoubleDot (segment : List Char) : Bool :=
  segment ∈ ["..".toList, ".%2e".toList, ".%2E".toList, "%2e.".toList,
    "%2E.".toList, "%2e%2e".toList, "%2e%2E".toList, "%2E%2e".toList,
    "%2E%2E".toList]

/-- A segment with a separator behind it. -/
def openSegment (path : List (List Char)) (segment : List Char) :
    List (List Char) :=
  if isDoubleDot segment then path.dropLast
  else if isSingleDot segment then path
  else path ++ [segment]

/-- The segment at the end. -/
def lastSegment (path : List (List Char)) (segment : List Char) :
    List (List Char) :=
  if isDoubleDot segment then path.dropLast ++ [[]]
  else if isSingleDot segment then path ++ [[]]
  else path ++ [segment]

def resolve (segments : List (List Char)) : List (List Char) :=
  match segments.getLast? with
  | some last => lastSegment (segments.dropLast.foldl openSegment []) last
  | none => []

/-- The segments of a path that begins with a separator. -/
def segmentsOf (path : List Char) : List (List Char) :=
  (match path with
    | char :: rest => if isSeparator char then rest else path
    | [] => []).splitOnP isSeparator

/-- The path of a URL that goes on like this behind its origin. -/
def urlPath (text : List Char) : List Char :=
  let path := text.takeWhile fun char => char ≠ '?' && char ≠ '#'
  '/' :: ['/'].intercalate (resolve (segmentsOf path))

/-! ## The server -/

def hexValue (char : Char) : Option Nat :=
  if '0' ≤ char ∧ char ≤ '9' then some (char.toNat - '0'.toNat)
  else if 'a' ≤ char ∧ char ≤ 'f' then some (char.toNat - 'a'.toNat + 10)
  else if 'A' ≤ char ∧ char ≤ 'F' then some (char.toNat - 'A'.toNat + 10)
  else none

def percentDecode : List Char → List Char
  | '%' :: high :: low :: rest =>
      match hexValue high, hexValue low with
      | some upper, some lower =>
          Char.ofNat (16 * upper + lower) :: percentDecode rest
      | _, _ => '%' :: percentDecode (high :: low :: rest)
  | char :: rest => char :: percentDecode rest
  | [] => []

def mergeSlashes : List Char → List Char
  | '/' :: '/' :: rest => mergeSlashes ('/' :: rest)
  | char :: rest => char :: mergeSlashes rest
  | [] => []

/-- The path as the server looks it up. -/
def servedPath (text : List Char) : List Char :=
  mergeSlashes (percentDecode (urlPath text))

/-! ## Spellings of a word -/

/-- A segment that the server reads as this word, slashes before it aside. -/
def Spells (word segment : List Char) : Prop :=
  (percentDecode segment).dropWhile (· = '/') = word

instance (word segment : List Char) : Decidable (Spells word segment) :=
  decEq _ word

/-- Segments, the last one first, of which nothing is left: each is a dot
segment, is taken back by one of `taken` double dots behind it or comes to
nothing but slashes. -/
def Vanish : List (List Char) → Nat → Prop
  | [], _ => True
  | segment :: earlier, taken =>
      if isDoubleDot segment then Vanish earlier (taken + 1)
      else if isSingleDot segment then Vanish earlier taken
      else
        match taken with
        | 0 => Spells [] segment ∧ Vanish earlier 0
        | taken + 1 => Vanish earlier taken

instance decidableVanish : (segments : List (List Char)) → (taken : Nat) →
    Decidable (Vanish segments taken)
  | [], _ => .isTrue trivial
  | segment :: earlier, 0 =>
      have := decidableVanish earlier
      inferInstanceAs (Decidable (if isDoubleDot segment then Vanish earlier 1
        else if isSingleDot segment then Vanish earlier 0
        else Spells [] segment ∧ Vanish earlier 0))
  | segment :: earlier, taken + 1 =>
      have := decidableVanish earlier
      inferInstanceAs (Decidable (
        if isDoubleDot segment then Vanish earlier (taken + 2)
        else if isSingleDot segment then Vanish earlier (taken + 1)
        else Vanish earlier taken))

/-- The last segment spells the word and those before it vanish. -/
def SpelledOut (word : List Char) (segments : List (List Char)) : Prop :=
  (∃ last ∈ segments.getLast?, Spells word last) ∧
    Vanish segments.dropLast.reverse 0

instance (word : List Char) (segments : List (List Char)) :
    Decidable (SpelledOut word segments) :=
  inferInstanceAs (Decidable (_ ∧ _))

/-! ### Reading -/

theorem percentDecode_cons {char : Char} (plain : char ≠ '%')
    (rest : List Char) :
    percentDecode (char :: rest) = char :: percentDecode rest := by
  rw [percentDecode]
  exact fun _ _ _ same => absurd same plain

theorem percentDecode_unread {high low : Char} (rest : List Char)
    (unread : hexValue high = none ∨ hexValue low = none) :
    percentDecode ('%' :: high :: low :: rest) =
      '%' :: percentDecode (high :: low :: rest) := by
  rw [percentDecode]
  rcases unread with first | second
  · simp only [first]
  · cases hexValue high <;> simp only [second]

theorem hexValue_slash : hexValue '/' = none := by decide

/-- No escape reaches across a slash. -/
theorem percentDecode_append_slash (front back : List Char) :
    percentDecode (front ++ '/' :: back) =
      percentDecode front ++ '/' :: percentDecode back := by
  fun_induction percentDecode front with
  | case1 high low rest upper lower first second ih =>
      simp only [List.cons_append, percentDecode, first, second, ih]
  | case2 high low rest unread ih =>
      simp only [List.cons_append] at ih ⊢
      rw [percentDecode]
      split
      · rename_i upper lower first second
        exact absurd second (unread upper lower first)
      · rw [ih]
  | case3 char rest other ih =>
      rw [List.cons_append, List.cons_append, ← ih]
      by_cases escape : char = '%'
      · subst escape
        match rest, other with
        | [], _ =>
            cases back with
            | nil => rfl
            | cons low back => exact percentDecode_unread _ (.inl hexValue_slash)
        | [high], _ => exact percentDecode_unread _ (.inr hexValue_slash)
        | high :: low :: rest, other => exact absurd rfl (other high low rest rfl)
      · exact percentDecode_cons escape _
  | case4 => simp [percentDecode]

theorem percentDecode_intercalate (segments : List (List Char)) :
    percentDecode (['/'].intercalate segments) =
      ['/'].intercalate (segments.map percentDecode) := by
  induction segments with
  | nil => rfl
  | cons first segments ih =>
      cases segments with
      | nil => simp
      | cons second segments =>
          rw [List.intercalate_cons_cons, List.map_cons, List.map_cons,
            List.intercalate_cons_cons, ← List.map_cons, ← ih]
          simpa using percentDecode_append_slash first _

theorem mergeSlashes_cons {char : Char} (other : char ≠ '/')
    (rest : List Char) :
    mergeSlashes (char :: rest) = char :: mergeSlashes rest := by
  rw [mergeSlashes]
  exact fun _ same => absurd same other

theorem slash_mem_mergeSlashes (text : List Char) :
    '/' ∈ mergeSlashes text ↔ '/' ∈ text := by
  fun_induction mergeSlashes text with
  | case1 rest ih => simp [ih]
  | case2 char rest other ih => simp [ih]
  | case3 => rfl

theorem mergeSlashes_plain {text : List Char} (plain : '/' ∉ text) :
    mergeSlashes text = text := by
  induction text with
  | nil => rfl
  | cons char text ih =>
      rw [List.mem_cons, not_or] at plain
      rw [mergeSlashes_cons (Ne.symm plain.1), ih plain.2]

theorem mergeSlashes_slash (text : List Char) :
    mergeSlashes ('/' :: text) =
      '/' :: mergeSlashes (text.dropWhile (· = '/')) := by
  induction text with
  | nil => rfl
  | cons char text ih =>
      by_cases slash : char = '/'
      · subst slash
        rw [mergeSlashes, ih, List.dropWhile_cons_of_pos (by simp)]
      · rw [List.dropWhile_cons_of_neg (by simpa using slash), mergeSlashes]
        exact fun _ _ same => slash (List.cons.inj same).1

/-- What is left of a text when repeated slashes are merged. -/
theorem mergeSlashes_eq_iff {word : List Char} (plain : '/' ∉ word)
    (text : List Char) :
    mergeSlashes ('/' :: text) = '/' :: word ↔
      text.dropWhile (· = '/') = word := by
  rw [mergeSlashes_slash, List.cons.injEq, and_iff_right rfl]
  constructor
  · intro merged
    have none_left : '/' ∉ text.dropWhile (· = '/') := by
      rw [← slash_mem_mergeSlashes, merged]
      exact plain
    rwa [mergeSlashes_plain none_left] at merged
  · rintro rfl
    exact mergeSlashes_plain plain

/-! ### Joining -/

/-- Joined texts read as a word if the last one does and the others are
slashes. -/
theorem dropWhile_intercalate_iff {word : List Char} (plain : '/' ∉ word)
    (texts : List (List Char)) (last : List Char) :
    (['/'].intercalate (texts ++ [last])).dropWhile (· = '/') = word ↔
      (∀ text ∈ texts, text.dropWhile (· = '/') = []) ∧
        last.dropWhile (· = '/') = word := by
  induction texts with
  | nil => simp
  | cons text texts ih =>
      obtain ⟨second, others, joined⟩ : ∃ second others,
          texts ++ [last] = second :: others :=
        List.exists_cons_of_ne_nil (by simp)
      rw [joined] at ih
      rw [List.cons_append, joined, List.intercalate_cons_cons,
        List.forall_mem_cons, and_assoc, ← ih]
      by_cases slashes : text.dropWhile (· = '/') = []
      · have all := List.dropWhile_eq_nil_iff.mp slashes
        rw [and_iff_right slashes, List.append_assoc,
          List.dropWhile_append_of_pos all]
        simp
      · refine iff_of_false ?_ (fun both => slashes both.1)
        rintro rfl
        refine plain ?_
        rw [List.append_assoc, List.dropWhile_append]
        simp [slashes]

/-! ### Resolving -/

theorem vanish_cons (segment : List Char) (earlier : List (List Char))
    (taken : Nat) :
    Vanish (segment :: earlier) taken =
      if isDoubleDot segment then Vanish earlier (taken + 1)
      else if isSingleDot segment then Vanish earlier taken
      else
        match taken with
        | 0 => Spells [] segment ∧ Vanish earlier 0
        | taken + 1 => Vanish earlier taken :=
  rfl

/-- What the segments before the end leave, without those that `taken` double
dots behind them take back, is nothing but slashes. -/
theorem vanish_iff (segments : List (List Char)) (taken : Nat) :
    (∀ segment ∈ (segments.foldl openSegment []).take
        ((segments.foldl openSegment []).length - taken),
      Spells [] segment) ↔ Vanish segments.reverse taken := by
  induction segments using List.reverseRecOn generalizing taken with
  | nil => simp [Vanish]
  | append_singleton segments segment ih =>
      rw [List.foldl_append, List.foldl_cons, List.foldl_nil,
        List.reverse_append, List.reverse_singleton, List.singleton_append,
        openSegment, vanish_cons]
      generalize segments.foldl openSegment [] = path at ih ⊢
      split_ifs with double single
      · rw [← ih, List.dropLast_eq_take, List.take_take, List.length_take]
        have same : min (min (path.length - 1) path.length - taken)
            (path.length - 1) = path.length - (taken + 1) := by omega
        rw [same]
      · exact ih taken
      · cases taken with
        | zero =>
            have all := ih 0
            rw [Nat.sub_zero, List.take_length] at all ⊢
            rw [← all]
            simp [or_imp, forall_and, and_comm]
        | succ taken =>
            rw [List.length_append, List.length_singleton,
              Nat.add_sub_add_right,
              List.take_append_of_le_length (Nat.sub_le _ _)]
            exact ih taken

theorem isSingleDot.spells {word segment : List Char}
    (dot : isSingleDot segment = true) (spells : Spells word segment) :
    word = ".".toList := by
  rw [← spells]
  simp only [isSingleDot, List.mem_cons, List.not_mem_nil, or_false,
    decide_eq_true_eq] at dot
  rcases dot with rfl | rfl | rfl <;> decide

theorem isDoubleDot.spells {word segment : List Char}
    (dots : isDoubleDot segment = true) (spells : Spells word segment) :
    word = "..".toList := by
  rw [← spells]
  simp only [isDoubleDot, List.mem_cons, List.not_mem_nil, or_false,
    decide_eq_true_eq] at dots
  rcases dots with rfl | rfl | rfl | rfl | rfl | rfl | rfl | rfl | rfl <;>
    decide

theorem spells_resolve_iff {word : List Char} (plain : '/' ∉ word)
    (path : List (List Char)) (last : List Char) :
    mergeSlashes (percentDecode
        ('/' :: ['/'].intercalate (path ++ [last]))) = '/' :: word ↔
      (∀ segment ∈ path, Spells [] segment) ∧ Spells word last := by
  rw [percentDecode_cons (by decide), percentDecode_intercalate,
    mergeSlashes_eq_iff plain, List.map_append, List.map_singleton,
    dropWhile_intercalate_iff plain, List.forall_mem_map]
  rfl

/-- A path is served as a word where its segments spell the word out. -/
theorem servedPath_eq_iff {word : List Char} (plain : '/' ∉ word)
    (proper : word ∉ [[], ".".toList, "..".toList]) (text : List Char) :
    servedPath text = '/' :: word ↔ SpelledOut word (segmentsOf
      (text.takeWhile fun char => char ≠ '?' && char ≠ '#')) := by
  simp only [List.mem_cons, List.not_mem_nil, or_false, not_or] at proper
  obtain ⟨filled, notDot, notDots⟩ := proper
  have none_empty : ¬ Spells word [] := fun spells => filled spells.symm
  rw [servedPath, urlPath]
  generalize text.takeWhile _ = path
  have some_segment : segmentsOf path ≠ [] := List.splitOnP_ne_nil _ _
  obtain ⟨earlier, last, segments⟩ :=
    (List.eq_nil_or_concat (segmentsOf path)).resolve_left some_segment
  rw [List.concat_eq_append] at segments
  have vanish := vanish_iff earlier 0
  rw [Nat.sub_zero, List.take_length] at vanish
  rw [segments, SpelledOut, resolve, List.getLast?_concat,
    List.dropLast_concat, ← vanish]
  simp only [lastSegment, Option.mem_some_iff, exists_eq_left']
  split_ifs with double single
  · rw [spells_resolve_iff plain]
    exact iff_of_false (fun both => none_empty both.2)
      (fun both => notDots (isDoubleDot.spells double both.1))
  · rw [spells_resolve_iff plain]
    exact iff_of_false (fun both => none_empty both.2)
      (fun both => notDot (isSingleDot.spells single both.1))
  · rw [spells_resolve_iff plain, and_comm]

end QuartzFire.UrlPath
