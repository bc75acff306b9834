import QuartzFire.Monitoring.Timestamps

/-!
# Timestamps in the order of time

What the formatter writes of a clock, in the years of four digits from the epoch
on, is the only date and time of the calendar that the clock can mean, and what
it writes of a later clock is a later text.
-/

namespace QuartzFire.Monitoring

open Calendar

/-! ## Columns of digits -/

section Columns

variable {width number number' : Nat}

theorem zeroPad_inj :
    zeroPad width number = zeroPad width number' ↔ number = number' := by
  constructor
  · intro same
    have values := congrArg (Nat.ofDigitChars 10 · 0) same
    simpa only [ofDigitChars_zeroPad] using values
  · rintro rfl
    rfl

theorem zeroPad_lt_iff (positive : 0 < width) (small : number < 10 ^ width)
    (small' : number' < 10 ^ width) :
    zeroPad width number < zeroPad width number' ↔ number < number' := by
  have same : (zeroPad width number).length = (zeroPad width number').length := by
    rw [length_zeroPad positive small, length_zeroPad positive small']
  rw [digits_lt_iff same (List.all_eq_true.mp (all_isDigit_zeroPad _ _))
    (List.all_eq_true.mp (all_isDigit_zeroPad _ _)), ofDigitChars_zeroPad,
    ofDigitChars_zeroPad]

/-- A column is compared before what stands behind its mark. -/
theorem column_lt_iff (positive : 0 < width) (small : number < 10 ^ width)
    (small' : number' < 10 ^ width) {mark : Char} {back back' : List Char} :
    zeroPad width number ++ mark :: back <
        zeroPad width number' ++ mark :: back' ↔
      number < number' ∨ number = number' ∧ back < back' := by
  have same : (zeroPad width number).length = (zeroPad width number').length := by
    rw [length_zeroPad positive small, length_zeroPad positive small']
  rw [append_lt_append_iff same, zeroPad_lt_iff positive small small',
    zeroPad_inj, List.cons_lt_cons_self]

end Columns

/-! ## The order of stamps -/

namespace Stamp

variable {stamp other : Stamp}

/-- Whole seconds since the epoch, of a stamp in UTC. -/
def unixSecs (stamp : Stamp) : Int :=
  dayNumber stamp.year stamp.month stamp.day * 86400 + stamp.hour * 3600 +
    stamp.minute * 60 + stamp.second

theorem instant_utc (stamp : Stamp) :
    stamp.instant .utc = stamp.unixSecs * 1000 + stamp.millis := by
  rw [instant, unixSecs, Zone.seconds, Int.sub_zero]

theorem millis_lt (stamp : Stamp) : stamp.millis < 1000 := by
  have below := ofDigitChars_lt stamp.isDigit_of_mem_fractionDigits
  rw [fractionDigits, List.length_map] at below
  rw [millis, fractionDigits, Nat.div_lt_iff_lt_mul (by positivity),
    Nat.mul_comm]
  exact Nat.mul_lt_mul_of_pos_left below (by decide)

theorem unixSecs_lt_iff (date : stamp.Exists) (date' : other.Exists) :
    stamp.unixSecs < other.unixSecs ↔
      stamp.year < other.year ∨ stamp.year = other.year ∧
        (stamp.month < other.month ∨ stamp.month = other.month ∧
          (stamp.day < other.day ∨ stamp.day = other.day ∧
            ((stamp.hour : Nat) < other.hour ∨
              (stamp.hour : Nat) = other.hour ∧
                ((stamp.minute : Nat) < other.minute ∨
                  (stamp.minute : Nat) = other.minute ∧
                    (stamp.second : Nat) < other.second)))) := by
  have days := dayNumber_lt_iff date date'
  have days' := dayNumber_lt_iff date' date
  rw [unixSecs, unixSecs]
  rcases Int.lt_trichotomy (dayNumber stamp.year stamp.month stamp.day)
    (dayNumber other.year other.month other.day) with before | same | after
  · have earlier := days.mp before
    omega
  · obtain ⟨years, months, sameDay⟩ := dayNumber_inj date date' same
    omega
  · have later := days'.mp after
    omega

/-- Stamps of the same second agree to the second. -/
theorem unixSecs_inj (date : stamp.Exists) (date' : other.Exists)
    (same : stamp.unixSecs = other.unixSecs) :
    stamp.year = other.year ∧ stamp.month = other.month ∧
      stamp.day = other.day ∧ stamp.hour = other.hour ∧
      stamp.minute = other.minute ∧ stamp.second = other.second := by
  have notBefore := (unixSecs_lt_iff date date').not.mp (by omega)
  have notAfter := (unixSecs_lt_iff date' date).not.mp (by omega)
  simp only [← Fin.val_inj]
  omega

theorem millis_of_three {a b c : Fin 10} (three : stamp.fraction = [a, b, c]) :
    stamp.millis = 100 * a + 10 * b + c := by
  rw [millis, fractionDigits, three, ofDigitChars_three, List.length_cons,
    List.length_cons, List.length_singleton]
  omega

/-- A stamp to the millisecond is the only one of its instant. -/
theorem eq_of_instant (date : stamp.Exists) (date' : other.Exists)
    (three : stamp.fraction.length = 3) (three' : other.fraction.length = 3)
    (same : stamp.instant .utc = other.instant .utc) : stamp = other := by
  rw [instant_utc, instant_utc] at same
  have small := stamp.millis_lt
  have small' := other.millis_lt
  obtain ⟨a, b, c, digits⟩ := List.length_eq_three.mp three
  obtain ⟨a', b', c', digits'⟩ := List.length_eq_three.mp three'
  have thousandths : stamp.millis = other.millis := by omega
  rw [millis_of_three digits, millis_of_three digits'] at thousandths
  have fraction : stamp.fraction = other.fraction := by
    rw [digits, digits']
    simp only [List.cons.injEq, ← Fin.val_inj, and_true]
    omega
  obtain ⟨year, month, day, hour, minute, second⟩ :=
    unixSecs_inj date date' (by omega)
  cases stamp
  cases other
  simp_all

/-! ## The order of their texts -/

theorem text_columns (whole : stamp.fraction = []) (back : List Char) :
    stamp.dateText ++ 'T' :: (stamp.clockText ++ back) =
      zeroPad 4 stamp.year ++ '-' :: (zeroPad 2 stamp.month ++
        '-' :: (zeroPad 2 stamp.day ++ 'T' :: (zeroPad 2 stamp.hour ++
          ':' :: (zeroPad 2 stamp.minute ++
            ':' :: (zeroPad 2 stamp.second ++ back))))) := by
  simp [dateText, clockText, fractionText, whole, List.intercalate]

theorem text_lt_iff (date : stamp.Exists) (date' : other.Exists)
    (whole : stamp.fraction = []) (whole' : other.fraction = [])
    (years : stamp.year ≤ 9999) (years' : other.year ≤ 9999) {mark : Char}
    {back back' : List Char} :
    stamp.dateText ++ 'T' :: (stamp.clockText ++ mark :: back) <
        other.dateText ++ 'T' :: (other.clockText ++ mark :: back') ↔
      stamp.unixSecs < other.unixSecs ∨
        stamp.unixSecs = other.unixSecs ∧ back < back' := by
  have months := date.month
  have months' := date'.month
  have days := date.day
  have days' := date'.day
  have before := unixSecs_lt_iff date date'
  have after := unixSecs_lt_iff date' date
  rw [text_columns whole, text_columns whole',
    column_lt_iff (by omega) (by omega) (by omega),
    column_lt_iff (by omega) (by omega) (by omega),
    column_lt_iff (by omega) (by omega) (by omega),
    column_lt_iff (by omega) (by omega) (by omega),
    column_lt_iff (by omega) (by omega) (by omega),
    column_lt_iff (by omega) (by omega) (by omega)]
  by_cases rest : back < back'
  · simp only [rest, and_true]
    omega
  · simp only [rest, and_false, or_false]
    omega

theorem length_text (date : stamp.Exists) (whole : stamp.fraction = [])
    (years : stamp.year ≤ 9999) :
    (stamp.dateText ++ 'T' :: stamp.clockText).length = 19 := by
  have months := date.month
  have days := date.day
  have columns := text_columns whole []
  rw [List.append_nil] at columns
  simp only [columns, List.length_append, List.length_cons, List.length_nil]
  rw [length_zeroPad (by omega) (by omega), length_zeroPad (by omega) (by omega),
    length_zeroPad (by omega) (by omega), length_zeroPad (by omega) (by omega),
    length_zeroPad (by omega) (by omega), length_zeroPad (by omega) (by omega)]

end Stamp

/-! ## What the formatter writes of a clock -/

/-- The seconds of the years 1970 to 9999. -/
def FourDigitYears (secs : Int) : Prop :=
  86400 * dayNumber 1970 1 1 ≤ secs ∧ secs < 86400 * dayNumber 10000 1 1

theorem fourDigitYears_iff {secs : Int} :
    FourDigitYears secs ↔ 0 ≤ secs ∧ secs < 253402300800 := by
  have epoch : dayNumber 1970 1 1 = 0 :=
    (daysFromCivil_eq (by decide) (by decide) 1).symm
  have last : dayNumber 10000 1 1 = 2932897 :=
    (daysFromCivil_eq (by decide) (by decide) 1).symm
  rw [FourDigitYears, epoch, last]
  omega

/-- A stamp to the millisecond of the calendar's time at a clock. -/
structure Stamp.Tells (stamp : Stamp) (secs : Int) (millis : Nat) : Prop where
  exists' : stamp.Exists
  three : stamp.fraction.length = 3
  instant : stamp.instant .utc = secs * 1000 + millis

theorem Stamp.years_iff {stamp : Stamp} (date : stamp.Exists) :
    FourDigitYears stamp.unixSecs ↔ 1970 ≤ stamp.year ∧ stamp.year ≤ 9999 := by
  have months := date.month
  have days := date.day
  have first := dayNumber_lt_iff date (show IsDate 1970 1 1 by decide)
  have last := dayNumber_lt_iff date (show IsDate 10000 1 1 by decide)
  rw [FourDigitYears, Stamp.unixSecs]
  omega

theorem Stamp.Tells.unixSecs {stamp : Stamp} {secs : Int} {millis : Nat}
    (tells : stamp.Tells secs millis) (small : millis < 1000) :
    stamp.unixSecs = secs := by
  have instant := tells.instant
  have below := stamp.millis_lt
  rw [Stamp.instant_utc] at instant
  omega

/-- The time of a clock exists in the calendar, and it is what is written. -/
theorem rfc3339Utc_tells {secs : Int} (years : FourDigitYears secs)
    {millis : Nat} (small : millis < 1000) :
    ∃ stamp : Stamp, stamp.Tells secs millis ∧
      rfc3339Utc secs millis = stamp.rfc3339 := by
  obtain ⟨stamp, text, fraction, date, instant⟩ :=
    rfc3339Utc_eq (fourDigitYears_iff.mp years).1 ⟨millis, small⟩
  refine ⟨stamp, ⟨date, ?_, instant⟩, text⟩
  rw [fraction]
  rfl

/-- A later second is written as a later text, and of one second a later
millisecond. -/
theorem rfc3339Utc_lt {secs later : Int} (years : FourDigitYears secs)
    (years' : FourDigitYears later) {millis millis' : Nat}
    (before : secs < later ∨
      secs = later ∧ millis < millis' ∧ millis' < 1000) :
    rfc3339Utc secs millis < rfc3339Utc later millis' := by
  obtain ⟨stamp, date, whole, instant, text⟩ :=
    rfc3339Utc_whole (fourDigitYears_iff.mp years).1
  obtain ⟨other, date', whole', instant', text'⟩ :=
    rfc3339Utc_whole (fourDigitYears_iff.mp years').1
  rw [Stamp.instant_utc, Stamp.millis_eq_zero whole] at instant
  rw [Stamp.instant_utc, Stamp.millis_eq_zero whole'] at instant'
  obtain rfl : stamp.unixSecs = secs := by omega
  obtain rfl : other.unixSecs = later := by omega
  have year := ((Stamp.years_iff date).mp years).2
  have year' := ((Stamp.years_iff date').mp years').2
  rw [text, text', Stamp.text_lt_iff date date' whole whole' year year']
  refine before.imp_right fun within => ⟨within.1, ?_⟩
  rw [column_lt_iff (by decide) (by omega) (by omega)]
  exact .inl within.2.1

/-- In the years 1970 to 9999 a clock is written as the one date and time of the
calendar that it shows, of which milliseconds only change what stands behind the
point, and texts are in the order of their clocks. -/
theorem rfc3339Utc_calendar {secs : Int} (years : FourDigitYears secs) :
    (∀ millis : Nat, millis < 1000 →
      (∃! stamp : Stamp, stamp.Tells secs millis) ∧
        ∀ stamp : Stamp, stamp.Tells secs millis →
          (1970 ≤ stamp.year ∧ stamp.year ≤ 9999) ∧
            rfc3339Utc secs millis = stamp.rfc3339) ∧
      (∃ front : List Char, front.length = 19 ∧ ∀ millis : Nat,
        rfc3339Utc secs millis = front ++ '.' :: (zeroPad 3 millis ++ ['Z'])) ∧
      ∀ later : Int, FourDigitYears later → ∀ millis millis' : Nat,
        (secs < later ∨ secs = later ∧ millis < millis' ∧ millis' < 1000) →
          rfc3339Utc secs millis < rfc3339Utc later millis' := by
  refine ⟨fun millis small => ?_, ?_,
    fun later years' millis millis' before => rfc3339Utc_lt years years' before⟩
  · obtain ⟨stamp, tells, text⟩ := rfc3339Utc_tells years small
    have only : ∀ other : Stamp, other.Tells secs millis → other = stamp :=
      fun other tells' => Stamp.eq_of_instant tells'.exists' tells.exists'
        tells'.three tells.three (tells'.instant.trans tells.instant.symm)
    refine ⟨⟨stamp, tells, only⟩, fun other tells' => ?_⟩
    obtain rfl := only other tells'
    refine ⟨(Stamp.years_iff tells.exists').mp ?_, text⟩
    rwa [tells.unixSecs small]
  · obtain ⟨stamp, date, whole, instant, text⟩ :=
      rfc3339Utc_whole (fourDigitYears_iff.mp years).1
    rw [Stamp.instant_utc, Stamp.millis_eq_zero whole] at instant
    obtain rfl : stamp.unixSecs = secs := by omega
    refine ⟨stamp.dateText ++ 'T' :: stamp.clockText,
      Stamp.length_text date whole ((Stamp.years_iff date).mp years).2,
      fun millis => ?_⟩
    rw [text, List.append_assoc, List.cons_append]

/-- A leap day of a century, and the day after it. -/
theorem rfc3339Utc_leap_day :
    (∃! stamp : Stamp, stamp.Tells 951782400 1) ∧
      rfc3339Utc 951782400 1 =
        Stamp.rfc3339 ⟨2000, 2, 29, 0, 0, 0, [0, 0, 1]⟩ ∧
      rfc3339Utc 951782400 1 < rfc3339Utc 951868800 0 := by
  have years : FourDigitYears 951782400 :=
    fourDigitYears_iff.mpr (by decide)
  have later : FourDigitYears 951868800 :=
    fourDigitYears_iff.mpr (by decide)
  have tells : Stamp.Tells ⟨2000, 2, 29, 0, 0, 0, [0, 0, 1]⟩ 951782400 1 := by
    refine ⟨by decide, rfl, ?_⟩
    rw [Stamp.instant_utc, Stamp.unixSecs,
      ← daysFromCivil_eq (by decide) (by decide)]
    decide
  obtain ⟨clock, _, order⟩ := rfc3339Utc_calendar years
  obtain ⟨only, text⟩ := clock 1 (by decide)
  exact ⟨only, (text _ tells).2, order _ later 1 0 (.inl (by decide))⟩

end QuartzFire.Monitoring
