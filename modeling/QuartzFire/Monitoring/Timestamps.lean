import QuartzFire.Foundation.Blanks
import QuartzFire.Foundation.Calendar
import QuartzFire.Foundation.DigitOrder
import QuartzFire.Foundation.Words

/-!
# Timestamps of events

The two parsers of the log readers, the formatter of the application control
daemon, and what the parsers make of a timestamp that is written out in full.
Sums of 64 bit integers wrap, once for the whole of a sum.
-/

namespace QuartzFire.Monitoring

open Calendar

/-! ## The parsers -/

/-- Year, month and day, month and day in their ranges. -/
def dateFields (d : List (List Char)) : Option (Int × Int × Int) := do
  let year ← d[0]?.bind (parseSigned 64)
  let month ← d[1]?.bind (parseSigned 64)
  let day ← d[2]?.bind (parseSigned 64)
  if ¬ (1 ≤ month ∧ month ≤ 12) ∨ ¬ (1 ≤ day ∧ day ≤ 31) then none
  else some (year, month, day)

/-- First three fraction digits, right-padded. -/
def firstThree (frac : List Char) : List Char :=
  frac.take 3 ++ List.replicate (3 - (frac.take 3).length) '0'

def isSign (char : Char) : Bool := char = '+' || char = '-'

/-- `strip_suffix('Z')`, if there is one. -/
def withoutZ (text : List Char) : List Char :=
  if text.getLast? = some 'Z' then text.dropLast else text

def offsetSeconds : List Char → Option Int
  | [] => some 0
  | sign :: rest => do
      let digits := rest.filter Char.isDigit
      if digits.length ≠ 4 then none
      let hours ← parseSigned 64 (digits.take 2)
      let minutes ← parseSigned 64 (digits.drop 2)
      some ((if sign = '-' then -1 else 1) * (hours * 3600 + minutes * 60))

/-- `u64::try_from` of a sum. -/
def tryFrom (sum : Int) : Option Nat :=
  let wrapped := sum.bmod (2 ^ 64)
  if wrapped < 0 then none else some wrapped.toNat

/-- EVE timestamp to milliseconds since the epoch. -/
def eveTsMs (s : List Char) : Option Nat := do
  let (date, rest) ← splitOnce 'T' (trim s)
  let d := date.splitOn '-'
  let (year, month, day) ← dateFields d
  if d[3]?.isSome then none
  let (time, offset) :=
    if rest.any isSign then
      (rest.takeWhile fun char => !isSign char,
        rest.dropWhile fun char => !isSign char)
    else (withoutZ rest, [])
  let t := time.splitOn ':'
  let hour ← t[0]?.bind (parseSigned 64)
  let minute ← t[1]?.bind (parseSigned 64)
  let secPart ← t[2]?
  let (secStr, frac) := (splitOnce '.' secPart).getD (secPart, [])
  let second ← parseSigned 64 secStr
  let ms ← parseSigned 64 (firstThree frac)
  let offsetSecs ← offsetSeconds offset
  let secs := daysFromCivil year month day * 86400 + hour * 3600 + minute * 60 +
    second - offsetSecs
  tryFrom (secs * 1000 + ms)

/-- RFC 3339 UTC to milliseconds since the epoch.  Where the seconds have no
fraction, what is read for them is the part after them. -/
def rfc3339Ms (s : List Char) : Option Nat := do
  let (date, time) ← splitOnce 'T' (withoutZ (trim s))
  let (year, month, day) ← dateFields (date.splitOn '-')
  let t := time.splitOn ':'
  let hour ← t[0]?.bind (parseSigned 64)
  let minute ← t[1]?.bind (parseSigned 64)
  let secPart ← t[2]?
  let (secStr, frac) := (splitOnce '.' secPart).getD (t[3]?.getD ['0'], [])
  let second ← parseSigned 64 secStr
  let ms := (parseSigned 64 (firstThree frac)).getD 0
  let secs := daysFromCivil year month day * 86400 + hour * 3600 + minute * 60 +
    second
  tryFrom (secs * 1000 + ms)

/-! ## The formatter -/

/-- At least so many digits. -/
def zeroPad (width number : Nat) : List Char :=
  List.replicate (width - (Nat.toDigits 10 number).length) '0' ++
    Nat.toDigits 10 number

/-- A sign counts as a digit. -/
def zeroPadInt (width : Nat) (number : Int) : List Char :=
  if number < 0 then '-' :: zeroPad (width - 1) number.natAbs
  else zeroPad width number.toNat

/-- Seconds and milliseconds of a clock as RFC 3339 UTC. -/
def rfc3339Utc (unixSecs : Int) (millis : Nat) : List Char :=
  let days := unixSecs / 86400
  let secsOfDay := unixSecs % 86400
  let (y, mo, d) := civilFromDays days
  ['-'].intercalate [zeroPadInt 4 y, zeroPadInt 2 mo, zeroPadInt 2 d] ++
    'T' :: ([':'].intercalate [zeroPadInt 2 (secsOfDay / 3600),
      zeroPadInt 2 (secsOfDay % 3600 / 60),
      zeroPadInt 2 (secsOfDay % 60) ++ '.' :: zeroPad 3 millis] ++ ['Z'])

/-! ## Written timestamps -/

/-- A date and a time of day, with the digits of a fraction. -/
structure Stamp where
  year : Nat
  month : Nat
  day : Nat
  hour : Fin 24
  minute : Fin 60
  second : Fin 60
  fraction : List (Fin 10)

inductive Zone where
  | utc
  | offset (west : Bool) (hours : Fin 24) (minutes : Fin 60) (colon : Bool)

/-- Seconds ahead of UTC. -/
def Zone.seconds : Zone → Int
  | .utc => 0
  | .offset west hours minutes _ =>
      (if west then -1 else 1) * ((hours : Int) * 3600 + (minutes : Int) * 60)

def Zone.text : Zone → List Char
  | .utc => ['Z']
  | .offset west hours minutes colon =>
      (if west then '-' else '+') :: (zeroPad 2 hours ++
        (if colon then [':'] else []) ++ zeroPad 2 minutes)

namespace Stamp

variable (stamp : Stamp) (zone : Zone)

def fractionDigits : List Char :=
  stamp.fraction.map fun digit : Fin 10 => Nat.digitChar digit

def fractionText : List Char :=
  if stamp.fraction = [] then [] else '.' :: stamp.fractionDigits

def dateText : List Char :=
  ['-'].intercalate
    [zeroPad 4 stamp.year, zeroPad 2 stamp.month, zeroPad 2 stamp.day]

def clockText : List Char :=
  [':'].intercalate [zeroPad 2 stamp.hour, zeroPad 2 stamp.minute,
    zeroPad 2 stamp.second ++ stamp.fractionText]

def eve : List Char :=
  stamp.dateText ++ 'T' :: (stamp.clockText ++ zone.text)

def rfc3339 : List Char :=
  stamp.dateText ++ 'T' :: (stamp.clockText ++ ['Z'])

/-- Whole milliseconds of the fraction. -/
def millis : Nat :=
  Nat.ofDigitChars 10 stamp.fractionDigits 0 * 1000 /
    10 ^ stamp.fraction.length

/-- Milliseconds since the epoch. -/
def instant : Int :=
  (dayNumber stamp.year stamp.month stamp.day * 86400 + stamp.hour * 3600 +
    stamp.minute * 60 + stamp.second - zone.seconds) * 1000 + stamp.millis

def Exists : Prop := IsDate stamp.year stamp.month stamp.day

instance : Decidable stamp.Exists :=
  inferInstanceAs (Decidable (IsDate _ _ _))

/-- The true milliseconds of a date that exists, none of one that does not. -/
def Decoded (result : Option Nat) : Prop :=
  if stamp.Exists then result.map Int.ofNat = some (stamp.instant zone)
  else result = none

instance (result : Option Nat) : Decidable (stamp.Decoded zone result) :=
  inferInstanceAs (Decidable (if stamp.Exists then
    result.map Int.ofNat = some (stamp.instant zone) else result = none))

end Stamp

/-! ## Digits -/

/-- What digits alone are read as. -/
theorem parseSigned_digits {digits : List Char} (some' : digits ≠ [])
    (plain : digits.all Char.isDigit = true) :
    parseSigned 64 digits =
      if Nat.ofDigitChars 10 digits 0 < 2 ^ 63 then
        some (Nat.ofDigitChars 10 digits 0 : Int)
      else none := by
  have unsigned : parseUnsigned 64 digits =
      if Nat.ofDigitChars 10 digits 0 < 2 ^ 64 then
        some (Nat.ofDigitChars 10 digits 0)
      else none := by
    split
    · rename_i fits
      exact parseUnsigned_eq_some.mpr
        ⟨digits, ⟨.inl rfl, some', plain⟩, rfl, fits⟩
    · rename_i large
      cases parsed : parseUnsigned 64 digits with
      | none => rfl
      | some value =>
          obtain ⟨other, ⟨same, _⟩, value_eq, fits⟩ :=
            parseUnsigned_eq_some.mp parsed
          rcases same with rfl | signed
          · rw [value_eq] at large
            exact absurd fits large
          · exact absurd signed (head_digits plain rfl other)
  have positive : parseSigned 64 digits =
      ((parseUnsigned 64 digits).filter (· < 2 ^ 63)).map Int.ofNat := by
    unfold parseSigned
    split
    · rename_i rest
      exact absurd rfl (head_digits plain rfl rest)
    · rfl
  rw [positive, unsigned]
  by_cases fits : Nat.ofDigitChars 10 digits 0 < 2 ^ 63
  · rw [if_pos fits, if_pos (by omega), Option.filter_some,
      if_pos (decide_eq_true fits)]
    rfl
  · rw [if_neg fits]
    split
    · rw [Option.filter_some, if_neg (by simpa using fits), Option.map_none]
    · rfl

theorem zeroPad_ne_nil (width number : Nat) : zeroPad width number ≠ [] := by
  simp [zeroPad, Nat.toDigits_ne_nil]

theorem all_isDigit_zeroPad (width number : Nat) :
    (zeroPad width number).all Char.isDigit = true := by
  rw [zeroPad, List.all_append, all_isDigit_digits, Bool.and_true,
    List.all_eq_true]
  intro char member
  rw [List.eq_of_mem_replicate member]
  rfl

theorem ofDigitChars_zeroPad (width number : Nat) :
    Nat.ofDigitChars 10 (zeroPad width number) 0 = number := by
  rw [zeroPad, Nat.ofDigitChars_append, Nat.ofDigitChars_replicate_zero,
    Nat.mul_zero, Nat.ofDigitChars_ten_toDigits]

theorem parseSigned_zeroPad (width number : Nat) :
    parseSigned 64 (zeroPad width number) =
      if number < 2 ^ 63 then some (number : Int) else none := by
  rw [parseSigned_digits (zeroPad_ne_nil _ _) (all_isDigit_zeroPad _ _),
    ofDigitChars_zeroPad]

theorem parseSigned_zeroPad_of_small {width number : Nat}
    (small : number < 2 ^ 63) :
    parseSigned 64 (zeroPad width number) = some (number : Int) := by
  rw [parseSigned_zeroPad, if_pos small]

theorem not_mem_zeroPad {char : Char} (other : char.isDigit = false)
    (width number : Nat) : char ∉ zeroPad width number := by
  intro member
  have digit := List.all_eq_true.mp (all_isDigit_zeroPad width number) _ member
  rw [other] at digit
  cases digit

theorem length_zeroPad {width number : Nat} (positive : 0 < width)
    (small : number < 10 ^ width) : (zeroPad width number).length = width := by
  have short : (Nat.toDigits 10 number).length ≤ width :=
    (Nat.length_toDigits_le_iff (by omega) positive).mpr small
  rw [zeroPad, List.length_append, List.length_replicate]
  omega

theorem isDigit_of_mem_digitChars {digits : List (Fin 10)} :
    ∀ char ∈ digits.map fun digit : Fin 10 => Nat.digitChar digit,
      char.isDigit = true := by
  intro char member
  obtain ⟨digit, _, rfl⟩ := List.mem_map.mp member
  rw [Nat.isDigit_digitChar]
  exact decide_eq_true digit.isLt

/-- The padded digits are the whole thousandths. -/
theorem ofDigitChars_firstThree {frac : List Char}
    (plain : ∀ digit ∈ frac, digit.isDigit = true) :
    Nat.ofDigitChars 10 (firstThree frac) 0 =
      Nat.ofDigitChars 10 frac 0 * 1000 / 10 ^ frac.length := by
  rw [firstThree, Nat.ofDigitChars_append, Nat.ofDigitChars_replicate_zero]
  by_cases short : frac.length ≤ 3
  · rw [List.take_of_length_le short]
    have thousand : 1000 = 10 ^ frac.length * 10 ^ (3 - frac.length) := by
      rw [← Nat.pow_add, Nat.add_sub_cancel' short]
    rw [thousand, Nat.mul_left_comm, Nat.mul_div_cancel_left _ (by positivity),
      Nat.mul_comm]
  · have three : (frac.take 3).length = 3 := by
      rw [List.length_take]
      omega
    have longer : 10 ^ frac.length = 10 ^ (frac.drop 3).length * 1000 := by
      rw [List.length_drop, show 1000 = 10 ^ 3 from rfl, ← Nat.pow_add,
        Nat.sub_add_cancel (by omega)]
    have parted : Nat.ofDigitChars 10 frac 0 =
        10 ^ (frac.drop 3).length * Nat.ofDigitChars 10 (frac.take 3) 0 +
          Nat.ofDigitChars 10 (frac.drop 3) 0 := by
      rw [← Nat.ofDigitChars_eq_ofDigitChars_zero, ← Nat.ofDigitChars_append,
        List.take_append_drop]
    have less : Nat.ofDigitChars 10 (frac.drop 3) 0 <
        10 ^ (frac.drop 3).length :=
      ofDigitChars_lt fun digit member =>
        plain digit (List.mem_of_mem_drop member)
    rw [three, Nat.sub_self, Nat.pow_zero, Nat.one_mul, longer,
      Nat.mul_div_mul_right _ _ (by omega), parted,
      Nat.mul_add_div (by positivity), Nat.div_eq_of_lt less, Nat.add_zero]

/-! ## Zones -/

namespace Zone

variable (zone : Zone)

theorem not_mem_text {char : Char} (other : char.isDigit = false)
    (notSign : isSign char = false) (notColon : char ≠ ':')
    (notZ : char ≠ 'Z') : char ∉ zone.text := by
  rw [isSign, Bool.or_eq_false_iff, decide_eq_false_iff_not,
    decide_eq_false_iff_not] at notSign
  have pads := not_mem_zeroPad other
  cases zone with
  | utc => simp [Zone.text, notZ]
  | offset west hours minutes colon =>
      cases west <;> cases colon <;>
        simp [Zone.text, pads, notSign, notColon]

/-- What stands behind the time, from its sign on. -/
def offsetText : List Char :=
  match zone with
  | .utc => []
  | .offset _ _ _ _ => zone.text

theorem filter_zeroPad (number : Nat) :
    (zeroPad 2 number).filter Char.isDigit = zeroPad 2 number :=
  List.filter_eq_self.mpr (List.all_eq_true.mp (all_isDigit_zeroPad 2 number))

theorem offsetSeconds_offsetText :
    offsetSeconds zone.offsetText = some zone.seconds := by
  cases zone with
  | utc => rfl
  | offset west hours minutes colon =>
      have hoursLength : (zeroPad 2 hours).length = 2 :=
        length_zeroPad (by omega) (by omega)
      have minutesLength : (zeroPad 2 minutes).length = 2 :=
        length_zeroPad (by omega) (by omega)
      have digits : (zeroPad 2 hours ++ (if colon then [':'] else []) ++
          zeroPad 2 minutes).filter Char.isDigit =
            zeroPad 2 hours ++ zeroPad 2 minutes := by
        have none : (if colon then [':'] else []).filter Char.isDigit = [] := by
          cases colon <;> rfl
        rw [List.filter_append, List.filter_append, filter_zeroPad,
          filter_zeroPad, none, List.append_nil]
      have sign : ((if west then '-' else '+') = '-') ↔ west = true := by
        cases west <;> decide
      rw [offsetText, text, offsetSeconds]
      simp only [digits, List.length_append, hoursLength, minutesLength,
        List.take_left' hoursLength, List.drop_left' hoursLength]
      rw [if_neg (by omega), parseSigned_zeroPad_of_small (by omega),
        parseSigned_zeroPad_of_small (by omega)]
      simp only [bind, Option.bind_some, sign, seconds]

/-- The text of an offset begins with its sign. -/
theorem text_eq (zone : Zone) :
    zone = .utc ∨ ∃ sign rest, isSign sign = true ∧
      zone.text = sign :: rest ∧ zone.offsetText = sign :: rest := by
  cases zone with
  | utc => exact .inl rfl
  | offset west hours minutes colon =>
      refine .inr ⟨_, _, ?_, rfl, rfl⟩
      cases west <;> rfl

end Zone

/-! ## Parts of a written timestamp -/

namespace Stamp

variable (stamp : Stamp)

theorem isDigit_of_mem_fractionDigits :
    ∀ char ∈ stamp.fractionDigits, char.isDigit = true :=
  isDigit_of_mem_digitChars

theorem parseSigned_fraction :
    parseSigned 64 (firstThree stamp.fractionDigits) =
      some (stamp.millis : Int) := by
  have plain := stamp.isDigit_of_mem_fractionDigits
  have value : Nat.ofDigitChars 10 (firstThree stamp.fractionDigits) 0 =
      stamp.millis := by
    rw [ofDigitChars_firstThree plain, millis, fractionDigits, List.length_map]
  have nonempty : firstThree stamp.fractionDigits ≠ [] := by
    intro empty
    have length := congrArg List.length empty
    simp only [firstThree, List.length_append, List.length_replicate,
      List.length_nil] at length
    omega
  have digits : ∀ char ∈ firstThree stamp.fractionDigits,
      char.isDigit = true := by
    intro char member
    rcases List.mem_append.mp member with kept | padding
    · exact plain char (List.mem_of_mem_take kept)
    · rw [List.eq_of_mem_replicate padding]
      rfl
  have short : (firstThree stamp.fractionDigits).length = 3 := by
    simp only [firstThree, List.length_append, List.length_replicate,
      List.length_take]
    omega
  have small := ofDigitChars_lt digits
  rw [short] at small
  rw [parseSigned_digits nonempty (List.all_eq_true.mpr digits),
    if_pos (by omega), value]

theorem parseSigned_hour :
    parseSigned 64 (zeroPad 2 stamp.hour) = some ((stamp.hour : Nat) : Int) :=
  parseSigned_zeroPad_of_small (by omega)

theorem parseSigned_minute :
    parseSigned 64 (zeroPad 2 stamp.minute) =
      some ((stamp.minute : Nat) : Int) :=
  parseSigned_zeroPad_of_small (by omega)

theorem parseSigned_second :
    parseSigned 64 (zeroPad 2 stamp.second) =
      some ((stamp.second : Nat) : Int) :=
  parseSigned_zeroPad_of_small (by omega)

theorem splitOn_dateText :
    stamp.dateText.splitOn '-' =
      [zeroPad 4 stamp.year, zeroPad 2 stamp.month, zeroPad 2 stamp.day] := by
  apply List.splitOn_intercalate
  · intro part member
    simp only [List.mem_cons, List.not_mem_nil, or_false] at member
    rcases member with rfl | rfl | rfl <;> exact not_mem_zeroPad rfl _ _
  · simp

/-- Month and day are in the ranges the parsers check, and the year is one of
their integers. -/
def InRange : Prop :=
  (1 ≤ stamp.month ∧ stamp.month ≤ 12) ∧ (1 ≤ stamp.day ∧ stamp.day ≤ 31) ∧
    stamp.year < 2 ^ 63

instance : Decidable stamp.InRange :=
  inferInstanceAs (Decidable (_ ∧ _))

theorem dateFields_dateText :
    dateFields (stamp.dateText.splitOn '-') =
      if stamp.InRange then
        some ((stamp.year : Int), (stamp.month : Int), (stamp.day : Int))
      else none := by
  rw [splitOn_dateText]
  have year := parseSigned_zeroPad 4 stamp.year
  have month := parseSigned_zeroPad 2 stamp.month
  have day := parseSigned_zeroPad 2 stamp.day
  simp only [dateFields, List.getElem?_cons_zero, List.getElem?_cons_succ,
    Option.bind_some, year, month, day]
  by_cases ranges : stamp.InRange
  · obtain ⟨months, days, years⟩ := id ranges
    rw [if_pos ranges, if_pos years, if_pos (by omega), if_pos (by omega)]
    simp only [bind, Option.bind_some]
    rw [if_neg (by omega)]
  · rw [if_neg ranges]
    rw [InRange] at ranges
    split <;> [skip; rfl]
    split <;> [skip; rfl]
    split <;> [skip; rfl]
    simp only [bind, Option.bind_some]
    rw [if_pos (by omega)]

theorem not_mem_fractionText {char : Char} (other : char.isDigit = false)
    (notPoint : char ≠ '.') : char ∉ stamp.fractionText := by
  rw [fractionText]
  split
  · exact List.not_mem_nil
  · rw [List.mem_cons, not_or]
    refine ⟨notPoint, fun member => ?_⟩
    have digit := stamp.isDigit_of_mem_fractionDigits _ member
    rw [other] at digit
    cases digit

theorem splitOn_clockText :
    stamp.clockText.splitOn ':' =
      [zeroPad 2 stamp.hour, zeroPad 2 stamp.minute,
        zeroPad 2 stamp.second ++ stamp.fractionText] := by
  apply List.splitOn_intercalate
  · intro part member
    simp only [List.mem_cons, List.not_mem_nil, or_false] at member
    rcases member with rfl | rfl | rfl
    · exact not_mem_zeroPad rfl _ _
    · exact not_mem_zeroPad rfl _ _
    · rw [List.mem_append, not_or]
      exact ⟨not_mem_zeroPad rfl _ _, not_mem_fractionText _ rfl (by decide)⟩
  · simp

theorem splitOnce_seconds :
    splitOnce '.' (zeroPad 2 stamp.second ++ stamp.fractionText) =
      if stamp.fraction = [] then none
      else some (zeroPad 2 stamp.second, stamp.fractionDigits) := by
  rw [fractionText]
  split
  · rw [List.append_nil]
    exact splitOnce_eq_none.mpr (not_mem_zeroPad rfl _ _)
  · exact splitOnce_eq_some.mpr ⟨rfl, not_mem_zeroPad rfl _ _⟩

/-- Neither part of a timestamp before the zone has a sign or a letter. -/
theorem not_mem_clockText {char : Char} (other : char.isDigit = false)
    (notPoint : char ≠ '.') (notColon : char ≠ ':') :
    char ∉ stamp.clockText := by
  have pads := not_mem_zeroPad other 2
  have fraction := stamp.not_mem_fractionText other notPoint
  simp [clockText, List.intercalate, pads, fraction, notColon]

theorem not_mem_dateText {char : Char} (other : char.isDigit = false)
    (notDash : char ≠ '-') : char ∉ stamp.dateText := by
  have pads := not_mem_zeroPad other
  simp [dateText, List.intercalate, pads, notDash]

variable (zone : Zone)

theorem trim_eve : trim (stamp.eve zone) = stamp.eve zone := by
  have dark : ∀ char ∈ stamp.eve zone, isWhitespace char = false := by
    intro char member
    rw [← Bool.not_eq_true]
    intro white
    have plain : ∀ letter : Char, isWhitespace letter = false →
        char ≠ letter := by
      rintro _ dark rfl
      rw [white] at dark
      cases dark
    have other : char.isDigit = false := by
      rw [← Bool.not_eq_true]
      intro digit
      have alphanum : char.isAlphanum = true := by
        simp [Char.isAlphanum, digit]
      have dark := not_isWhitespace_of_alphanum alphanum
      rw [white] at dark
      cases dark
    have sign : isSign char = false := by
      rw [isSign, Bool.or_eq_false_iff]
      exact ⟨decide_eq_false (plain '+' rfl), decide_eq_false (plain '-' rfl)⟩
    rw [eve, List.mem_append, List.mem_cons, List.mem_append] at member
    rcases member with inDate | rfl | inClock | inZone
    · exact stamp.not_mem_dateText other (plain '-' rfl) inDate
    · exact plain 'T' rfl rfl
    · exact stamp.not_mem_clockText other (plain '.' rfl) (plain ':' rfl) inClock
    · exact zone.not_mem_text other sign (plain ':' rfl) (plain 'Z' rfl)
        inZone
  apply trimBy_of_ends
  · intro char first
    exact dark char (List.mem_of_mem_head? first)
  · intro char last
    exact dark char (List.mem_of_getLast? last)

theorem splitOnce_eve :
    splitOnce 'T' (stamp.eve zone) =
      some (stamp.dateText, stamp.clockText ++ zone.text) :=
  splitOnce_eq_some.mpr ⟨rfl, stamp.not_mem_dateText rfl (by decide)⟩

theorem isSign_clockText :
    ∀ char ∈ stamp.clockText, isSign char = false := by
  intro char member
  rw [isSign, Bool.or_eq_false_iff]
  constructor
  · rw [decide_eq_false_iff_not]
    rintro rfl
    exact stamp.not_mem_clockText rfl (by decide) (by decide) member
  · rw [decide_eq_false_iff_not]
    rintro rfl
    exact stamp.not_mem_clockText rfl (by decide) (by decide) member

theorem withoutZ_append_Z (text : List Char) :
    withoutZ (text ++ ['Z']) = text := by
  rw [withoutZ, List.getLast?_concat, if_pos rfl, List.dropLast_concat]

/-- The time is what stands before the zone. -/
theorem parted_rest :
    (if (stamp.clockText ++ zone.text).any isSign then
        ((stamp.clockText ++ zone.text).takeWhile fun char => !isSign char,
          (stamp.clockText ++ zone.text).dropWhile fun char => !isSign char)
      else (withoutZ (stamp.clockText ++ zone.text), [])) =
        (stamp.clockText, zone.offsetText) := by
  have unsigned := stamp.isSign_clockText
  rcases zone.text_eq with rfl | ⟨sign, rest, signed, text, offset⟩
  · have none : (stamp.clockText ++ Zone.utc.text).any isSign = false := by
      rw [List.any_append, List.any_eq_false.mpr]
      · rfl
      · intro char member
        rw [unsigned char member]
        exact Bool.false_ne_true
    rw [none, if_neg Bool.false_ne_true, Zone.text, withoutZ_append_Z]
    rfl
  · have kept : ∀ char ∈ stamp.clockText, (!isSign char) = true := by
      intro char member
      rw [unsigned char member]
      rfl
    rw [text, offset, List.any_append, List.any_cons, signed, Bool.true_or,
      Bool.or_true, if_pos rfl, List.takeWhile_append_of_pos kept,
      List.dropWhile_append_of_pos kept]
    simp [signed]

theorem splitOnce_seconds_getD :
    (splitOnce '.' (zeroPad 2 stamp.second ++ stamp.fractionText)).getD
        (zeroPad 2 stamp.second ++ stamp.fractionText, []) =
      (zeroPad 2 stamp.second, stamp.fractionDigits) := by
  rw [splitOnce_seconds]
  split
  · rename_i empty
    rw [Option.getD_none, fractionText, if_pos empty, fractionDigits, empty,
      List.append_nil, List.map_nil]
  · rfl

/-! ## What the parsers read -/

theorem eveTsMs_eve :
    eveTsMs (stamp.eve zone) =
      if stamp.InRange then tryFrom (stamp.instant zone) else none := by
  rw [eveTsMs, trim_eve, splitOnce_eve]
  simp only [bind, Option.bind_some]
  rw [dateFields_dateText]
  by_cases ranges : stamp.InRange
  · rw [if_pos ranges, if_pos ranges, Option.bind_some]
    have three : (stamp.dateText.splitOn '-')[3]?.isSome = false := by
      rw [splitOn_dateText]
      rfl
    simp only [three, parted_rest, splitOn_clockText,
      List.getElem?_cons_zero, List.getElem?_cons_succ, Option.bind_some,
      splitOnce_seconds_getD, parseSigned_hour, parseSigned_minute,
      parseSigned_second, parseSigned_fraction,
      Zone.offsetSeconds_offsetText]
    rw [if_neg Bool.false_ne_true, instant,
      daysFromCivil_eq ranges.1.1 ranges.1.2]
  · rw [if_neg ranges, if_neg ranges, Option.bind_none]

/-- The stamp as the second parser reads it. -/
def withoutSeconds : Stamp :=
  if stamp.fraction = [] then { stamp with second := 0 } else stamp

theorem rfc3339Ms_rfc3339 :
    rfc3339Ms stamp.rfc3339 =
      if stamp.InRange then tryFrom (stamp.withoutSeconds.instant .utc)
      else none := by
  have whole : stamp.rfc3339 = stamp.eve .utc := rfl
  have parts : withoutZ (trim stamp.rfc3339) =
      stamp.dateText ++ 'T' :: stamp.clockText := by
    have joined : stamp.eve .utc =
        (stamp.dateText ++ 'T' :: stamp.clockText) ++ ['Z'] := by
      simp [eve, Zone.text]
    rw [whole, trim_eve, joined, withoutZ_append_Z]
  have split : splitOnce 'T' (stamp.dateText ++ 'T' :: stamp.clockText) =
      some (stamp.dateText, stamp.clockText) :=
    splitOnce_eq_some.mpr ⟨rfl, stamp.not_mem_dateText rfl (by decide)⟩
  rw [rfc3339Ms, parts, split]
  simp only [bind, Option.bind_some]
  rw [dateFields_dateText]
  by_cases ranges : stamp.InRange
  · rw [if_pos ranges, if_pos ranges, Option.bind_some]
    simp only [splitOn_clockText, List.getElem?_cons_zero,
      List.getElem?_cons_succ, Option.bind_some, splitOnce_seconds,
      parseSigned_hour, parseSigned_minute, withoutSeconds]
    rw [daysFromCivil_eq ranges.1.1 ranges.1.2]
    by_cases empty : stamp.fraction = []
    · have zero : parseSigned 64 ['0'] = some 0 := rfl
      have fraction := stamp.parseSigned_fraction
      rw [fractionDigits, empty, List.map_nil] at fraction
      simp only [if_pos empty, Option.getD_none, List.getElem?_nil, zero,
        fraction, Option.bind_some, Option.getD_some, instant, Zone.seconds,
        Int.sub_zero]
      rfl
    · simp only [if_neg empty, Option.getD_some, parseSigned_second,
        parseSigned_fraction, Option.bind_some, instant, Zone.seconds,
        Int.sub_zero]
  · rw [if_neg ranges, if_neg ranges, Option.bind_none]

/-! ## The range of a sum -/

theorem tryFrom_eq_none {sum : Int} :
    tryFrom sum = none ↔ sum.bmod (2 ^ 64) < 0 := by
  simp only [tryFrom]
  split
  · simp_all
  · simp_all

theorem map_tryFrom {sum value : Int} :
    (tryFrom sum).map Int.ofNat = some value ↔
      0 ≤ value ∧ value < 2 ^ 63 ∧ sum % 2 ^ 64 = value := by
  have wrapped := Int.bmod_def sum (2 ^ 64)
  simp only [tryFrom]
  split
  · rename_i negative
    simp only [Option.map_none, reduceCtorEq, false_iff, not_and]
    split at wrapped <;> omega
  · rename_i positive
    simp only [Option.map_some, Option.some.injEq, Int.ofNat_eq_natCast]
    split at wrapped <;> omega

/-- After the range of years that are read, and of sums. -/
theorem instant_large (first : 1 ≤ stamp.day) (large : 2 ^ 63 ≤ stamp.year) :
    2 ^ 63 ≤ stamp.instant zone := by
  have years := daysBeforeYear_eq stamp.year
  have epoch := daysBeforeYear_eq 1970
  have ahead : zone.seconds ≤ 90000 := by
    cases zone with
    | utc => simp [Zone.seconds]
    | offset west hours minutes colon =>
        simp only [Zone.seconds]
        split <;> omega
  rw [instant, dayNumber]
  omega

theorem inRange_iff (exists' : stamp.Exists) :
    stamp.InRange ↔ stamp.year < 2 ^ 63 := by
  rw [InRange]
  exact ⟨fun ranges => ranges.2.2,
    fun year => ⟨exists'.month, exists'.day, year⟩⟩

theorem instant_withoutSeconds :
    stamp.withoutSeconds.instant .utc = stamp.instant .utc -
      if stamp.fraction = [] then ((stamp.second : Nat) : Int) * 1000
      else 0 := by
  rw [withoutSeconds]
  split
  · have same : millis { stamp with second := 0 } = stamp.millis := rfl
    simp only [instant, same, Zone.seconds]
    have zero : (((0 : Fin 60) : Nat) : Int) = 0 := rfl
    omega
  · omega

/-- Which timestamps are decoded, by the sum that is formed of them. -/
theorem decoded_iff {sum : Int} :
    stamp.Decoded zone (if stamp.InRange then tryFrom sum else none) ↔
      if stamp.Exists then
        0 ≤ stamp.instant zone ∧ stamp.instant zone < 2 ^ 63 ∧
          sum % 2 ^ 64 = stamp.instant zone
      else stamp.InRange → sum.bmod (2 ^ 64) < 0 := by
  rw [Decoded]
  by_cases exists' : stamp.Exists
  · rw [if_pos exists', if_pos exists']
    split
    · exact map_tryFrom
    · rename_i outside
      rw [stamp.inRange_iff exists', not_lt] at outside
      have later := stamp.instant_large zone exists'.day.1 outside
      simp only [Option.map_none, reduceCtorEq, false_iff]
      omega
  · rw [if_neg exists', if_neg exists']
    split
    · rename_i ranges
      rw [tryFrom_eq_none]
      exact ⟨fun below _ => below, fun below => below ranges⟩
    · rename_i ranges
      simp [ranges]

end Stamp

/-! ## What the formatter writes -/

theorem zeroPadInt_natCast (width number : Nat) :
    zeroPadInt width number = zeroPad width number := by
  rw [zeroPadInt, if_neg (by omega), Int.toNat_natCast]

def threeDigits (millis : Fin 1000) : List (Fin 10) :=
  [Fin.ofNat 10 (millis / 100), Fin.ofNat 10 (millis / 10),
    Fin.ofNat 10 millis]

theorem ofDigitChars_three (a b c : Fin 10) :
    Nat.ofDigitChars 10 ([a, b, c].map fun digit : Fin 10 =>
      Nat.digitChar digit) 0 = 100 * a + 10 * b + c := by
  have value : ∀ digit : Fin 10,
      (Nat.digitChar digit).toNat - '0'.toNat = digit := by decide
  simp only [List.map_cons, List.map_nil, Nat.ofDigitChars_cons,
    Nat.ofDigitChars_nil, value]
  omega

theorem zeroPad_millis (millis : Fin 1000) :
    zeroPad 3 millis = (threeDigits millis).map
      fun digit : Fin 10 => Nat.digitChar digit := by
  apply digits_inj
  · rw [length_zeroPad (by decide) (by omega)]
    rfl
  · exact List.all_eq_true.mp (all_isDigit_zeroPad 3 millis)
  · exact isDigit_of_mem_digitChars
  · rw [ofDigitChars_zeroPad, threeDigits, ofDigitChars_three]
    simp only [Fin.val_ofNat]
    omega

theorem Stamp.millis_eq_zero {stamp : Stamp} (none : stamp.fraction = []) :
    stamp.millis = 0 := by
  simp [Stamp.millis, Stamp.fractionDigits, none]

/-- From the epoch on the date and the time of day are written, and the
milliseconds behind a point. -/
theorem rfc3339Utc_whole {secs : Int} (later : 0 ≤ secs) :
    ∃ stamp : Stamp, stamp.Exists ∧ stamp.fraction = [] ∧
      stamp.instant .utc = secs * 1000 ∧
      ∀ millis, rfc3339Utc secs millis =
        stamp.dateText ++ 'T' :: (stamp.clockText ++
          '.' :: (zeroPad 3 millis ++ ['Z'])) := by
  obtain ⟨year, month, day, civil, date, days⟩ :=
    civilFromDays_spec (show 0 ≤ secs / 86400 by omega)
  obtain ⟨hour, hourSame⟩ : ∃ hour : Fin 24,
      secs % 86400 / 3600 = ((hour : Nat) : Int) :=
    ⟨⟨(secs % 86400 / 3600).toNat, by omega⟩, by simp; omega⟩
  obtain ⟨minute, minuteSame⟩ : ∃ minute : Fin 60,
      secs % 86400 % 3600 / 60 = ((minute : Nat) : Int) :=
    ⟨⟨(secs % 86400 % 3600 / 60).toNat, by omega⟩, by simp; omega⟩
  obtain ⟨second, secondSame⟩ : ∃ second : Fin 60,
      secs % 86400 % 60 = ((second : Nat) : Int) :=
    ⟨⟨(secs % 86400 % 60).toNat, by omega⟩, by simp; omega⟩
  refine ⟨⟨year, month, day, hour, minute, second, []⟩, date, rfl, ?_, ?_⟩
  · have none :
        Stamp.millis ⟨year, month, day, hour, minute, second, []⟩ = 0 :=
      Stamp.millis_eq_zero rfl
    simp only [Stamp.instant, none, Zone.seconds, days]
    omega
  · intro millis
    simp only [rfc3339Utc, civil, hourSame, minuteSame, secondSame,
      zeroPadInt_natCast]
    simp [Stamp.dateText, Stamp.clockText, Stamp.fractionText,
      List.intercalate]

/-- From the epoch on a stamp is written, and its instant is the clock's. -/
theorem rfc3339Utc_eq {secs : Int} (later : 0 ≤ secs) (millis : Fin 1000) :
    ∃ stamp : Stamp, rfc3339Utc secs (millis : Nat) = stamp.rfc3339 ∧
      stamp.fraction = threeDigits millis ∧ stamp.Exists ∧
      stamp.instant .utc = secs * 1000 + (millis : Nat) := by
  obtain ⟨whole, date, none, instant, text⟩ := rfc3339Utc_whole later
  refine ⟨{ whole with fraction := threeDigits millis }, ?_, rfl, date, ?_⟩
  · have three : threeDigits millis ≠ [] := List.cons_ne_nil _ _
    simp [text, Stamp.rfc3339, Stamp.dateText, Stamp.clockText,
      Stamp.fractionText, none, three, Stamp.fractionDigits, zeroPad_millis,
      List.intercalate]
  · have fraction :
        Stamp.millis { whole with fraction := threeDigits millis } = millis := by
      simp only [Stamp.millis, Stamp.fractionDigits]
      rw [← zeroPad_millis, ofDigitChars_zeroPad, threeDigits, List.length_cons,
        List.length_cons, List.length_singleton]
      omega
    simp only [Stamp.instant, Stamp.millis_eq_zero none] at instant
    simp only [Stamp.instant, fraction]
    omega

/-! ## Which timestamps are read right -/

/-- A sum short of the seconds is not the sum, however it wraps. -/
theorem sum_short_iff {instant : Int} {second : Nat} (seconds : second < 60)
    (low : 0 ≤ instant) (high : instant < 2 ^ 63) :
    (instant - (second : Int) * 1000) % 2 ^ 64 = instant ↔ second = 0 := by
  have positive : 0 ≤ (second : Int) * 1000 := by omega
  have small : (second : Int) * 1000 < 2 ^ 64 := by omega
  constructor
  · intro wraps
    have multiple := Int.dvd_self_sub_of_emod_eq wraps
    rw [Int.sub_sub, Int.add_comm, ← Int.sub_sub, Int.sub_self, Int.zero_sub,
      Int.dvd_neg] at multiple
    have none : (second : Int) * 1000 = 0 :=
      Int.eq_zero_of_dvd_of_nonneg_of_lt positive small multiple
    clear multiple wraps
    omega
  · rintro rfl
    rw [Nat.cast_zero, Int.zero_mul, Int.sub_zero]
    exact Int.emod_eq_of_lt low (by omega)

theorem decoded_eve (stamp : Stamp) (zone : Zone) :
    stamp.Decoded zone (eveTsMs (stamp.eve zone)) ↔
      if stamp.Exists then
        0 ≤ stamp.instant zone ∧ stamp.instant zone < 2 ^ 63
      else stamp.InRange → (stamp.instant zone).bmod (2 ^ 64) < 0 := by
  rw [Stamp.eveTsMs_eve, Stamp.decoded_iff]
  split
  · refine and_congr_right fun low => and_iff_left_of_imp fun high => ?_
    exact Int.emod_eq_of_lt low (by omega)
  · rfl

theorem decoded_rfc3339 (stamp : Stamp) :
    stamp.Decoded .utc (rfc3339Ms stamp.rfc3339) ↔
      if stamp.Exists then
        0 ≤ stamp.instant .utc ∧ stamp.instant .utc < 2 ^ 63 ∧
          (stamp.fraction ≠ [] ∨ stamp.second = 0)
      else stamp.InRange →
        (stamp.withoutSeconds.instant .utc).bmod (2 ^ 64) < 0 := by
  rw [Stamp.rfc3339Ms_rfc3339, Stamp.decoded_iff]
  split
  · rw [Stamp.instant_withoutSeconds, ← Fin.val_eq_zero_iff]
    refine and_congr_right fun low => and_congr_right fun high => ?_
    by_cases empty : stamp.fraction = []
    · rw [if_pos empty, sum_short_iff stamp.second.isLt low high]
      simp only [empty, ne_eq, not_true_eq_false, false_or]
    · rw [if_neg empty, Int.sub_zero]
      simp only [empty, ne_eq, not_false_eq_true, true_or, iff_true]
      exact Int.emod_eq_of_lt low (by omega)
  · rfl

theorem read_back_iff (secs : Int) (millis : Fin 1000) :
    (rfc3339Ms (rfc3339Utc secs (millis : Nat))).map Int.ofNat =
        some (secs * 1000 + (millis : Nat)) ↔
      0 ≤ secs * 1000 + (millis : Nat) ∧
        secs * 1000 + (millis : Nat) < 2 ^ 63 := by
  by_cases later : 0 ≤ secs
  · obtain ⟨stamp, same, fraction, date, instant⟩ := rfc3339Utc_eq later millis
    have three : stamp.fraction ≠ [] := by
      rw [fraction]
      exact List.cons_ne_nil _ _
    rw [same, Stamp.rfc3339Ms_rfc3339, Stamp.withoutSeconds, if_neg three,
      instant]
    split
    · rw [Stamp.map_tryFrom]
      refine and_congr_right fun low => and_iff_left_of_imp fun high => ?_
      exact Int.emod_eq_of_lt low (by omega)
    · rename_i outside
      have large : 2 ^ 63 ≤ stamp.year := by
        by_contra small
        exact outside ⟨date.month, date.day, by omega⟩
      have far := stamp.instant_large .utc date.1 large
      rw [instant] at far
      simp only [Option.map_none, reduceCtorEq, false_iff, not_and, not_lt]
      intro _
      exact far
  · refine iff_of_false (fun read => ?_) (by omega)
    obtain ⟨value, _, same⟩ := Option.map_eq_some_iff.mp read
    rw [Int.ofNat_eq_natCast] at same
    omega

/-- A written timestamp is decoded exactly in these cases.  By the first parser:
the date exists and its instant is one of the 63 bits from the epoch on, or its
month or day is out of range or the sum wraps to a negative one.  By the second
the same, and of a date that exists there is a fraction or the seconds are zero.
A clock's text is read back exactly within the 63 bits. -/
theorem timestamps_decoded (stamp : Stamp) (zone : Zone) (secs : Int)
    (millis : Fin 1000) :
    (stamp.Decoded zone (eveTsMs (stamp.eve zone)) ↔
      if stamp.Exists then
        0 ≤ stamp.instant zone ∧ stamp.instant zone < 2 ^ 63
      else stamp.InRange → (stamp.instant zone).bmod (2 ^ 64) < 0) ∧
    (stamp.Decoded .utc (rfc3339Ms stamp.rfc3339) ↔
      if stamp.Exists then
        0 ≤ stamp.instant .utc ∧ stamp.instant .utc < 2 ^ 63 ∧
          (stamp.fraction ≠ [] ∨ stamp.second = 0)
      else stamp.InRange →
        (stamp.withoutSeconds.instant .utc).bmod (2 ^ 64) < 0) ∧
    ((rfc3339Ms (rfc3339Utc secs (millis : Nat))).map Int.ofNat =
        some (secs * 1000 + (millis : Nat)) ↔
      0 ≤ secs * 1000 + (millis : Nat) ∧
        secs * 1000 + (millis : Nat) < 2 ^ 63) :=
  ⟨decoded_eve stamp zone, decoded_rfc3339 stamp, read_back_iff secs millis⟩

/-- Seconds without a fraction, and a thirtieth of February. -/
theorem timestamps_not_decoded :
    ¬ Stamp.Decoded ⟨2026, 7, 11, 14, 3, 22, []⟩ .utc
        (rfc3339Ms "2026-07-11T14:03:22Z".toList) ∧
      ¬ Stamp.Decoded ⟨2026, 2, 30, 0, 0, 0, [0]⟩ .utc
        (eveTsMs "2026-02-30T00:00:00.0Z".toList) := by
  decide +kernel

end QuartzFire.Monitoring
