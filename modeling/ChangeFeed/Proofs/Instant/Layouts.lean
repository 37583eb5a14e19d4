import Mathlib.Data.List.TakeWhile
import ChangeFeed.Proofs.Record.RoundTrip
import ChangeFeed.Proofs.Text.Blank

/-!
# One time in all layouts

`CivilTime` is a date and a time of day as they are written, and `CivilTime.instant` the instant at
which a clock in UTC shows them (`CivilTime.shown_instant`). Each number of a text is read back by
the fixed widths of the internet layout as well as by the loose ones (`Instant.scanFixed_padded`,
`Instant.scanLoose_padded`), and a fraction gives the whole nanoseconds in it, however many digits
it has (`CivilTime.scanFraction_text`).

The layouts are tried in order, so for each text it is also shown that those before the right one
refuse it. The internet layout needs a zone directly behind the time
(`CivilTime.readInternet?_text`). Of the loose ones the first needs a sign there, and the letter
tells the next two apart: what any of them does is settled by the gap behind the date
(`CivilTime.scanReading_dateText`).
-/

namespace ChangeFeed

open Text

/-! ## Times and offsets as they are written -/

/-- A date with a year of four digits, a time of day, and the digits of a fraction of its second, if
it has one. -/
structure CivilTime where
  date : Date
  hour : Nat
  minute : Nat
  second : Nat
  fraction : List Char
  date_isValid : date.isValid = true
  year_range : 0 ≤ date.year ∧ date.year ≤ 9999
  hour_lt : hour < 24
  minute_lt : minute < 60
  second_lt : second < 60
  fraction_isDigits : IsDigits fraction

/-- How far a zone is ahead of UTC, or behind it, in hours and minutes. -/
structure ZoneOffset where
  behind : Bool
  hours : Nat
  minutes : Nat
  hours_lt : hours < 24
  minutes_lt : minutes < 60

namespace ZoneOffset

/-- The offset in seconds. -/
def seconds (o : ZoneOffset) : Int :=
  (if o.behind then -1 else 1) * (o.hours * 3600 + o.minutes * 60 : Nat)

/-- The sign of the offset. -/
def sign (o : ZoneOffset) : Char :=
  if o.behind then '-' else '+'

/-- The offset as `+hh:mm`. -/
def colonText (o : ZoneOffset) : List Char :=
  o.sign :: (padded 2 o.hours ++ ':' :: padded 2 o.minutes)

/-- The offset as `+hhmm`. -/
def plainText (o : ZoneOffset) : List Char :=
  o.sign :: (padded 2 o.hours ++ padded 2 o.minutes)

/-- No offset from UTC, as `+00:00` or `+0000`. -/
def utc : ZoneOffset where
  behind := false
  hours := 0
  minutes := 0
  hours_lt := by decide
  minutes_lt := by decide

end ZoneOffset

namespace CivilTime

/-- The whole nanoseconds in the fraction. -/
def nano (c : CivilTime) : Nat :=
  Instant.digitsValue c.fraction * 10 ^ 9 / 10 ^ c.fraction.length

/-- What a clock shows at the time. -/
def reading (c : CivilTime) : ClockReading :=
  ⟨c.date, c.hour, c.minute, c.second, c.nano⟩

/-- The instant at which a clock in UTC shows the time. -/
def instant (c : CivilTime) : Instant :=
  ⟨c.date.dayNumber, c.hour * 3600 + c.minute * 60 + c.second, c.nano⟩

/-- The start of its day. -/
def midnight (c : CivilTime) : CivilTime where
  date := c.date
  hour := 0
  minute := 0
  second := 0
  fraction := []
  date_isValid := c.date_isValid
  year_range := c.year_range
  hour_lt := by decide
  minute_lt := by decide
  second_lt := by decide
  fraction_isDigits := List.forall_mem_nil _

/-- The date, as `YYYY-MM-DD`. -/
def dateText (c : CivilTime) : List Char :=
  padded 4 c.date.year.toNat ++ '-' :: (padded 2 c.date.month ++ '-' :: padded 2 c.date.day)

/-- The fraction behind its point, or nothing. -/
def fractionText (c : CivilTime) : List Char :=
  if c.fraction = [] then [] else '.' :: c.fraction

/-- The time of day, as `HH:MM:SS` and the fraction. -/
def clockText (c : CivilTime) : List Char :=
  padded 2 c.hour ++ ':' :: (padded 2 c.minute ++ ':' :: (padded 2 c.second ++ c.fractionText))

/-- The texts of the time in UTC: with its zone in each layout that has one, and without. -/
def textsInUtc (c : CivilTime) : List (List Char) :=
  [c.dateText ++ 'T' :: (c.clockText ++ ['Z']),
    c.dateText ++ 'T' :: (c.clockText ++ "+00:00".toList),
    c.dateText ++ ' ' :: (c.clockText ++ " +0000".toList),
    c.dateText ++ 'T' :: c.clockText,
    c.dateText ++ ' ' :: c.clockText]

/-- The texts of the time in a zone, in each layout that has one. -/
def textsInZone (c : CivilTime) (o : ZoneOffset) : List (List Char) :=
  [c.dateText ++ 'T' :: (c.clockText ++ o.colonText),
    c.dateText ++ ' ' :: (c.clockText ++ ' ' :: o.plainText)]

end CivilTime

namespace Instant

/-- Nanoseconds from the epoch. -/
def epochNanos (t : Instant) : Int :=
  (t.day * 86400 + t.second) * 10 ^ 9 + t.nano

/-- The instant a number of seconds earlier, or later if it is negative. -/
def earlier (t : Instant) (seconds : Int) : Instant :=
  ⟨t.day + (t.second - seconds) / 86400, ((t.second - seconds) % 86400).toNat, t.nano⟩

/-- An instant that is so many seconds earlier has as many seconds less since the epoch. -/
theorem epochNanos_earlier (t : Instant) (seconds : Int) :
    (t.earlier seconds).epochNanos = t.epochNanos - seconds * 10 ^ 9 := by
  unfold earlier epochNanos
  dsimp only
  omega

/-- The days that an instant may fall on, counted from the epoch. -/
theorem isDayInRange_iff {day : Int} :
    isDayInRange day = true ↔ -96465292 ≤ day ∧ day ≤ 95026236 := by
  have hbounds : Date.first.dayNumber = -96465292 ∧ Date.last.dayNumber = 95026236 := ⟨rfl, rfl⟩
  unfold isDayInRange
  rw [Bool.and_eq_true, decide_eq_true_eq, decide_eq_true_eq, hbounds.1, hbounds.2]

/-! ## Numbers -/

/-- A part that is read leaves the parts behind it. -/
theorem bind_of_eq_some {α β : Type} {x : Option α} {a : α} {f : α → Option β} (h : x = some a) :
    x.bind f = f a := by
  rw [h]
  rfl

/-- A number with all of its digits does not begin with a blank. -/
theorem trimLeft_padded {width n : Nat} (hwidth : 0 < width) (hn : n < 10 ^ width)
    (rest : List Char) : trimLeft (padded width n ++ rest) = padded width n ++ rest := by
  have hlength := length_padded hwidth hn
  refine trimLeft_of_head fun c hc => isBlank_of_isDigit (isDigits_padded width n c ?_)
  rw [List.head?_append_of_ne_nil _ (List.ne_nil_of_length_pos (by omega))] at hc
  exact List.mem_of_mem_head? hc

/-- A number that was written with all of its digits is read back in a loose layout. -/
theorem scanLoose_padded {width n : Nat} (hwidth : 0 < width) (hn : n < 10 ^ width)
    (rest : List Char) : scanLoose width (padded width n ++ rest) = some (n, rest) := by
  have hlength := length_padded hwidth hn
  have hne : padded width n ≠ [] := List.ne_nil_of_length_pos (by omega)
  have hdigits : (padded width n).takeWhile Char.isDigit = padded width n :=
    List.takeWhile_eq_self_iff.2 (isDigits_padded width n)
  unfold scanLoose
  rw [trimLeft_padded hwidth hn]
  dsimp only
  rw [List.take_left' hlength, hdigits, if_neg hne, List.drop_left, digitsValue_padded]

/-- So is a year of four digits. -/
theorem scanYear_padded {n : Nat} (hn : n < 10 ^ 4) (rest : List Char) :
    scanYear (padded 4 n ++ rest) = some ((n : Int), rest) := by
  have hhead : ∀ c ∈ (padded 4 n ++ rest).head?, c ≠ '-' ∧ c ≠ '+' := by
    intro c hc
    have hlength := length_padded (by decide : 0 < 4) hn
    rw [List.head?_append_of_ne_nil _ (List.ne_nil_of_length_pos (by omega))] at hc
    exact ne_sign_of_isDigit (isDigits_padded 4 n c (List.mem_of_mem_head? hc))
  have hread := scanLoose_padded (by decide : 0 < 4) hn rest
  unfold scanYear
  rw [trimLeft_padded (by decide) hn]
  generalize padded 4 n ++ rest = cs at hhead hread
  split
  · exact absurd rfl (hhead _ rfl).1
  · exact absurd rfl (hhead _ rfl).2
  · rw [hread]
    rfl

/-- What may stand behind a fraction, or in its place. -/
def EndsFraction (rest : List Char) : Prop :=
  ∀ c ∈ rest.head?, c.isDigit = false ∧ c ≠ '.'

/-- A fraction may stand at the end. -/
theorem endsFraction_nil : EndsFraction [] := by
  rintro c ⟨⟩

/-- Behind a fraction there may stand what is neither a digit nor a point. -/
theorem endsFraction_cons {c : Char} (rest : List Char) (h : c.isDigit = false ∧ c ≠ '.') :
    EndsFraction (c :: rest) := by
  rintro d ⟨⟩
  exact h

/-- The whole nanoseconds in a fraction are those that its first nine digits write. -/
theorem digitsValue_take_nine {digits : List Char} (h : IsDigits digits) :
    digitsValue (digits.take 9) * 10 ^ (9 - (digits.take 9).length) =
      digitsValue digits * 10 ^ 9 / 10 ^ digits.length := by
  rcases Nat.le_total digits.length 9 with hshort | hlong
  · have hpow : 10 ^ 9 = 10 ^ (9 - digits.length) * 10 ^ digits.length := by
      rw [← Nat.pow_add, Nat.sub_add_cancel hshort]
    rw [List.take_of_length_le hshort, hpow, ← Nat.mul_assoc,
      Nat.mul_div_cancel _ (Nat.pow_pos (by decide))]
  · -- The digits behind the ninth add less than one to the nanoseconds.
    have hkept : (digits.take 9).length = 9 := List.length_take_of_le hlong
    have hdropped : digitsValue (digits.drop 9) < 10 ^ (digits.drop 9).length :=
      digitsValue_lt fun c hc => h c (List.mem_of_mem_drop hc)
    have hvalue : digitsValue digits = 10 ^ (digits.drop 9).length * digitsValue (digits.take 9) +
        digitsValue (digits.drop 9) := by
      conv_lhs => rw [← List.take_append_drop 9 digits]
      unfold digitsValue
      rw [Nat.ofDigitChars_append, Nat.ofDigitChars_eq_ofDigitChars_zero]
    have hpow : 10 ^ digits.length = 10 ^ (digits.drop 9).length * 10 ^ 9 := by
      rw [← Nat.pow_add, List.length_drop, Nat.sub_add_cancel hlong]
    rw [hkept, hpow, Nat.mul_div_mul_right _ _ (by decide), hvalue,
      Nat.mul_add_div (Nat.pow_pos (by decide)), Nat.div_eq_of_lt hdropped, Nat.sub_self,
      Nat.pow_zero, Nat.mul_one, Nat.add_zero]

end Instant

namespace CivilTime

open Instant

variable {c : CivilTime}

/-! ## The time -/

/-- The nanoseconds of a civil time are less than a second. -/
theorem nano_lt (c : CivilTime) : c.nano < 10 ^ 9 := by
  have hlt := digitsValue_lt c.fraction_isDigits
  exact Nat.div_lt_of_lt_mul (Nat.mul_lt_mul_of_pos_right hlt (by decide))

/-- Without a fraction there are none. -/
theorem nano_eq_zero (h : c.fraction = []) : c.nano = 0 := by
  unfold nano
  rw [h]
  rfl

/-- The days around it are days that an instant may fall on. -/
theorem isDayInRange_of_near (c : CivilTime) {day : Int} (hfirst : c.date.dayNumber - 1 ≤ day)
    (hlast : day ≤ c.date.dayNumber + 1) : isDayInRange day = true := by
  -- The day of the year is not needed, only that the next year begins behind it.
  obtain ⟨dayOfYear, hlt, hnumber, -⟩ := Date.dayNumber_eq c.date_isValid
  have hbegin : Date.daysBeforeYear 0 ≤ Date.daysBeforeYear c.date.year :=
    Date.daysBeforeYear_le c.year_range.1
  have hend : Date.daysBeforeYear (c.date.year + 1) ≤ Date.daysBeforeYear 10000 :=
    Date.daysBeforeYear_le (Int.add_one_le_of_lt (Int.lt_add_one_of_le c.year_range.2))
  rw [Date.daysBeforeYear_succ] at hend
  have hbounds : Date.daysBeforeYear 0 = -366 ∧ Date.daysBeforeYear 10000 = 3652059 ∧
      Date.epochOffset = 719162 := ⟨rfl, rfl, rfl⟩
  rw [isDayInRange_iff]
  omega

/-- A clock in UTC shows the time at its instant. -/
theorem shown_instant (c : CivilTime) : c.instant.shown = c.reading := by
  have hnano := c.nano_lt
  have hhour := c.hour_lt
  have hminute := c.minute_lt
  have hsecond := c.second_lt
  unfold shown reading instant
  dsimp only
  rw [Date.ofDayNumber_dayNumber c.date_isValid, if_neg (by omega), if_neg (by omega),
    ClockReading.mk.injEq]
  refine ⟨rfl, ?_, ?_, ?_, rfl⟩ <;> omega

/-- No seconds earlier is the same instant. -/
theorem earlier_zero_instant (c : CivilTime) : c.instant.earlier 0 = c.instant := by
  have hhour := c.hour_lt
  have hminute := c.minute_lt
  have hsecond := c.second_lt
  unfold earlier instant
  dsimp only
  rw [Instant.mk.injEq]
  omega

/-- A clock that is ahead by less than a day shows the time as much earlier. -/
theorem ofReading?_reading (c : CivilTime) {offset : Int} (hoffset : offset.natAbs < 86400) :
    ofReading? c.reading offset = some (c.instant.earlier offset) := by
  have hhour := c.hour_lt
  have hminute := c.minute_lt
  have hsecond := c.second_lt
  have hcount : c.reading.secondOfDay = c.instant.second := by
    unfold ClockReading.secondOfDay reading instant
    dsimp only
    rw [if_neg (by omega)]
    omega
  have hday : isDayInRange c.date.dayNumber = true :=
    c.isDayInRange_of_near (by omega) (by omega)
  have hvalid : c.reading.isValid = true := by
    unfold ClockReading.isValid reading
    dsimp only
    rw [c.date_isValid, hday]
    simp only [Bool.true_and, Bool.and_eq_true, decide_eq_true_eq]
    omega
  rw [ofReading?_eq_some_iff, hcount]
  refine ⟨hvalid, c.isDayInRange_of_near ?_ ?_, rfl, rfl, ?_⟩
  · unfold earlier instant
    dsimp only
    omega
  · unfold earlier instant
    dsimp only
    omega
  · rw [if_neg (by unfold reading; dsimp only; omega)]
    rfl

/-- That instant has a day in range, and no leap second. -/
theorem earlier_instant_spec (c : CivilTime) {offset : Int} (hoffset : offset.natAbs < 86400) :
    isDayInRange (c.instant.earlier offset).day = true ∧
      (c.instant.earlier offset).second < 86400 ∧ (c.instant.earlier offset).nano < 10 ^ 9 := by
  have hday := (ofReading?_eq_some_iff.1 (c.ofReading?_reading hoffset)).2.1
  refine ⟨hday, ?_, c.nano_lt⟩
  unfold earlier
  dsimp only
  omega

/-! ## The parts of its texts -/

/-- A fraction is read as the whole nanoseconds in it, and a missing one as none. -/
theorem scanFraction_text (c : CivilTime) {rest : List Char} (hrest : EndsFraction rest) :
    scanFraction (c.fractionText ++ rest) = some (c.nano, rest) := by
  unfold fractionText
  split
  · next hnone =>
    -- What stands in place of the fraction is not taken for one.
    rw [nano_eq_zero hnone, List.nil_append]
    unfold scanFraction
    split
    · exact absurd rfl (hrest '.' rfl).2
    · rfl
  · next hsome =>
    obtain ⟨htake, hdrop⟩ := span_isDigit c.fraction_isDigits fun d hd => (hrest d hd).1
    rw [List.cons_append, scanFraction]
    dsimp only
    rw [htake, hdrop, if_neg hsome, Nat.pow_eq, digitsValue_take_nine c.fraction_isDigits]
    rfl

/-- The numbers of a date have the digits that are written. -/
theorem date_lt (c : CivilTime) :
    c.date.year.toNat < 10 ^ 4 ∧ c.date.month < 10 ^ 2 ∧ c.date.day < 10 ^ 2 := by
  have := Date.bounds_of_isValid c.date_isValid
  have := c.year_range
  omega

/-- So have those of a time of day. -/
theorem clock_lt (c : CivilTime) : c.hour < 10 ^ 2 ∧ c.minute < 10 ^ 2 ∧ c.second < 10 ^ 2 := by
  have := c.hour_lt
  have := c.minute_lt
  have := c.second_lt
  omega

/-- The year of a civil time is a natural number. -/
theorem toNat_year (c : CivilTime) : (c.date.year.toNat : Int) = c.date.year :=
  Int.toNat_of_nonneg c.year_range.1

/-- What a text in the internet layout is read as is settled by the zone behind the time. -/
theorem readInternet?_text (c : CivilTime) {gap : Char} (hgap : gap = 'T' ∨ gap = 't' ∨ gap = ' ')
    {rest : List Char} (hrest : EndsFraction rest) :
    readInternet? (c.dateText ++ gap :: (c.clockText ++ rest)) =
      (scanZone rest).bind fun (offset, cs) =>
        if cs = [] then ofReading? c.reading offset else none := by
  obtain ⟨hyear, hmonth, hday⟩ := c.date_lt
  obtain ⟨hhour, hminute, hsecond⟩ := c.clock_lt
  unfold dateText clockText
  simp only [List.append_assoc, List.cons_append]
  refine (bind_of_eq_some (scanFixed_padded (by decide) hyear _)).trans ?_
  refine (bind_of_eq_some (scanChar_cons _ _)).trans ?_
  refine (bind_of_eq_some (scanFixed_padded (by decide) hmonth _)).trans ?_
  refine (bind_of_eq_some (scanChar_cons _ _)).trans ?_
  refine (bind_of_eq_some (scanFixed_padded (by decide) hday _)).trans ?_
  refine (if_pos hgap).trans ?_
  refine (bind_of_eq_some (scanFixed_padded (by decide) hhour _)).trans ?_
  refine (bind_of_eq_some (scanChar_cons _ _)).trans ?_
  refine (bind_of_eq_some (scanFixed_padded (by decide) hminute _)).trans ?_
  refine (bind_of_eq_some (scanChar_cons _ _)).trans ?_
  refine (bind_of_eq_some (scanFixed_padded (by decide) hsecond _)).trans ?_
  refine (bind_of_eq_some (c.scanFraction_text hrest)).trans ?_
  dsimp only
  rw [c.toNat_year]
  rfl

/-- A date alone is not in the internet layout. -/
theorem readInternet?_dateText (c : CivilTime) : readInternet? c.dateText = none := by
  obtain ⟨hyear, hmonth, hday⟩ := c.date_lt
  have hend := scanFixed_padded (by decide) hday []
  rw [List.append_nil] at hend
  refine (bind_of_eq_some (scanFixed_padded (by decide) hyear _)).trans ?_
  refine (bind_of_eq_some (scanChar_cons _ _)).trans ?_
  refine (bind_of_eq_some (scanFixed_padded (by decide) hmonth _)).trans ?_
  refine (bind_of_eq_some (scanChar_cons _ _)).trans ?_
  exact bind_of_eq_some hend

/-- What a loose layout reads behind the gap. -/
def scanClock (date : Date) (cs : List Char) : Option (ClockReading × List Char) := do
  let (hour, cs) ← scanLoose 2 cs
  let cs ← scanChar ':' cs
  let (minute, cs) ← scanLoose 2 cs
  let cs ← scanChar ':' cs
  let (second, cs) ← scanLoose 2 cs
  let (nano, cs) ← scanFraction cs
  some (⟨date, hour, minute, second, nano⟩, cs)

/-- A date is read back from its text, whatever stands behind it. -/
theorem scanDate_dateText (c : CivilTime) (rest : List Char) :
    scanDate (c.dateText ++ rest) = some (c.date, rest) := by
  obtain ⟨hyear, hmonth, hday⟩ := c.date_lt
  unfold scanDate dateText
  simp only [List.append_assoc, List.cons_append, scanYear_padded hyear,
    scanLoose_padded (by decide) hmonth, scanLoose_padded (by decide) hday, scanChar_cons,
    Option.bind_eq_bind, Option.bind_some, c.toNat_year]

/-- What a loose layout reads is settled by its gap behind the date. -/
theorem scanReading_dateText (c : CivilTime) (gap : List Char → Option (List Char))
    (rest : List Char) :
    scanReading gap (c.dateText ++ rest) = (gap rest).bind (scanClock c.date) := by
  have hunfold : scanReading gap (c.dateText ++ rest) =
      (scanDate (c.dateText ++ rest)).bind fun d => (gap d.2).bind (scanClock d.1) := rfl
  rw [hunfold, c.scanDate_dateText]
  rfl

/-- A time of day is read back from its text, wherever its fraction ends behind it. -/
theorem scanClock_clockText (c : CivilTime) {rest : List Char} (hrest : EndsFraction rest) :
    scanClock c.date (c.clockText ++ rest) = some (c.reading, rest) := by
  obtain ⟨hhour, hminute, hsecond⟩ := c.clock_lt
  unfold scanClock clockText
  simp only [List.append_assoc, List.cons_append, scanLoose_padded (by decide) hhour,
    scanLoose_padded (by decide) hminute, scanLoose_padded (by decide) hsecond, scanChar_cons,
    c.scanFraction_text hrest, Option.bind_eq_bind, Option.bind_some]
  rfl

/-- A blank gap is passed over. -/
theorem skipBlanks_clockText (c : CivilTime) (rest : List Char) :
    skipBlanks (' ' :: (c.clockText ++ rest)) = some (c.clockText ++ rest) := by
  unfold skipBlanks clockText
  rw [List.append_assoc, trimLeft, List.dropWhile_cons_of_pos (by decide)]
  exact congrArg some (trimLeft_padded (by decide) c.clock_lt.1 _)

end CivilTime

/-! ## Offsets -/

namespace ZoneOffset

open Instant

variable (o : ZoneOffset)

/-- An offset is less than a day. -/
theorem natAbs_seconds_lt : o.seconds.natAbs < 86400 := by
  have := o.hours_lt
  have := o.minutes_lt
  unfold seconds
  split <;> omega

/-- The sign is neither part of a fraction, nor a zone by itself, nor a blank. -/
theorem sign_spec : o.sign.isDigit = false ∧ o.sign ≠ '.' ∧ ¬(o.sign = 'Z' ∨ o.sign = 'z') ∧
    isBlank o.sign = false := by
  unfold sign
  split <;> decide

/-- An offset is read back where the gap between its hours and its minutes is passed over. -/
theorem scanOffset_text {gap : List Char → Option (List Char)} (between : List Char)
    (hgap : gap (between ++ padded 2 o.minutes) = some (padded 2 o.minutes)) :
    scanOffset gap (o.sign :: (padded 2 o.hours ++ (between ++ padded 2 o.minutes))) =
      some (o.seconds, []) := by
  have hhours := o.hours_lt
  have hminutes := o.minutes_lt
  have hsign : offsetSign? o.sign = some (if o.behind then -1 else 1) := by
    unfold sign
    split <;> rfl
  have hend := scanFixed_padded (by decide) (by omega : o.minutes < 10 ^ 2) []
  rw [List.append_nil] at hend
  refine (bind_of_eq_some hsign).trans ?_
  refine (bind_of_eq_some (scanFixed_padded (by decide) (by omega) _)).trans ?_
  refine (bind_of_eq_some hgap).trans ?_
  refine (bind_of_eq_some hend).trans ?_
  exact if_pos ⟨hminutes, hhours⟩

/-- The internet layout reads an offset with a colon. -/
theorem scanZone_colonText : scanZone o.colonText = some (o.seconds, []) := by
  have hzone : scanZone o.colonText = scanOffset (scanChar ':') o.colonText :=
    if_neg o.sign_spec.2.2.1
  rw [hzone]
  exact o.scanOffset_text [':'] (scanChar_cons ':' _)

/-- Digits are no gap between the hours and the minutes. -/
theorem skipColons_padded (n : Nat) : skipColons (padded 2 n) = some (padded 2 n) := by
  refine congrArg some (List.dropWhile_eq_self_iff.2 fun hpos => ?_)
  have hdigit : (padded 2 n)[0].isDigit = true := isDigits_padded 2 n _ (List.getElem_mem hpos)
  generalize (padded 2 n)[0] = d at hdigit ⊢
  rw [isBlank_of_isDigit hdigit, Bool.or_false, decide_eq_true_eq]
  rintro rfl
  cases hdigit

/-- The layout with an offset behind a blank reads one without a colon too. -/
theorem scanOffset_plainText :
    scanOffset skipColons (trimLeft (' ' :: o.plainText)) = some (o.seconds, []) := by
  have hblank : trimLeft (' ' :: o.plainText) = o.plainText := by
    unfold trimLeft
    rw [List.dropWhile_cons_of_pos (by decide)]
    refine trimLeft_of_head ?_
    rintro d ⟨⟩
    exact o.sign_spec.2.2.2
  rw [hblank]
  exact o.scanOffset_text [] (skipColons_padded o.minutes)

end ZoneOffset

/-! ## The layouts -/

namespace CivilTime

open Instant

variable (c : CivilTime)

/-- With a zone behind the time, whatever offset it gives. -/
theorem read?_zone {zone : List Char} {offset : Int} (hzone : scanZone zone = some (offset, []))
    (hend : EndsFraction zone) (hoffset : offset.natAbs < 86400) :
    read? (c.dateText ++ 'T' :: (c.clockText ++ zone)) = some (c.instant.earlier offset) := by
  have hread : readInternet? (c.dateText ++ 'T' :: (c.clockText ++ zone)) =
      some (c.instant.earlier offset) := by
    rw [c.readInternet?_text (.inl rfl) hend, hzone]
    exact c.ofReading?_reading hoffset
  unfold read?
  rw [hread]
  rfl

/-- With an offset behind a blank. The internet layout does not pass over the blank. -/
theorem read?_offset (o : ZoneOffset) :
    read? (c.dateText ++ ' ' :: (c.clockText ++ ' ' :: o.plainText)) =
      some (c.instant.earlier o.seconds) := by
  have hend : EndsFraction (' ' :: o.plainText) := endsFraction_cons _ (by decide)
  have hinternet : readInternet? (c.dateText ++ ' ' :: (c.clockText ++ ' ' :: o.plainText)) =
      none := by
    rw [c.readInternet?_text (.inr (.inr rfl)) hend]
    rfl
  have hread : readWithOffset? (c.dateText ++ ' ' :: (c.clockText ++ ' ' :: o.plainText)) =
      some (c.instant.earlier o.seconds) := by
    unfold readWithOffset?
    rw [c.scanReading_dateText, c.skipBlanks_clockText, Option.bind_some,
      c.scanClock_clockText hend, Option.bind_eq_bind, Option.bind_some]
    refine (bind_of_eq_some o.scanOffset_plainText).trans ?_
    exact c.ofReading?_reading o.natAbs_seconds_lt
  unfold read?
  rw [hinternet, hread]
  rfl

/-- Without a zone the internet layout refuses the time. -/
theorem readInternet?_zoneless {gap : Char} (hgap : gap = 'T' ∨ gap = 't' ∨ gap = ' ') :
    readInternet? (c.dateText ++ gap :: c.clockText) = none := by
  rw [← List.append_nil c.clockText, c.readInternet?_text hgap endsFraction_nil]
  rfl

/-- A loose layout reads the time where it passes over the gap. -/
theorem scanReading_zoneless {gap : List Char → Option (List Char)} {between : Char}
    (hgap : gap (between :: c.clockText) = some c.clockText) :
    scanReading gap (c.dateText ++ between :: c.clockText) = some (c.reading, []) := by
  have hclock := c.scanClock_clockText endsFraction_nil
  rw [List.append_nil] at hclock
  rw [c.scanReading_dateText, hgap, Option.bind_some, hclock]

/-- With a letter between date and time. It is no blank, so the layout with an offset finds no hour
behind the date. -/
theorem read?_letter : read? (c.dateText ++ 'T' :: c.clockText) = some (c.instant.earlier 0) := by
  have hoffset : readWithOffset? (c.dateText ++ 'T' :: c.clockText) = none := by
    unfold readWithOffset?
    rw [c.scanReading_dateText]
    rfl
  have hread : readWithLetter? (c.dateText ++ 'T' :: c.clockText) =
      some (c.instant.earlier 0) := by
    unfold readWithLetter?
    rw [c.scanReading_zoneless (scanChar_cons 'T' _)]
    exact c.ofReading?_reading (by decide)
  unfold read?
  rw [c.readInternet?_zoneless (.inl rfl), hoffset, hread]
  rfl

/-- With a blank between date and time. The layout with an offset reads both and finds no sign
behind them, and that with the letter does not find the letter. -/
theorem read?_blank : read? (c.dateText ++ ' ' :: c.clockText) = some (c.instant.earlier 0) := by
  have hgap : skipBlanks (' ' :: c.clockText) = some c.clockText := by
    have := c.skipBlanks_clockText []
    rwa [List.append_nil] at this
  have hoffset : readWithOffset? (c.dateText ++ ' ' :: c.clockText) = none := by
    unfold readWithOffset?
    rw [c.scanReading_zoneless hgap]
    rfl
  have hletter : readWithLetter? (c.dateText ++ ' ' :: c.clockText) = none := by
    unfold readWithLetter?
    rw [c.scanReading_dateText]
    rfl
  have hread : readWithBlank? (c.dateText ++ ' ' :: c.clockText) =
      some (c.instant.earlier 0) := by
    unfold readWithBlank?
    rw [c.scanReading_zoneless hgap]
    exact c.ofReading?_reading (by decide)
  unfold read?
  rw [c.readInternet?_zoneless (.inr (.inr rfl)), hoffset, hletter, hread]
  rfl

/-- With the date alone. No layout with a time finds an hour behind it. -/
theorem read?_date : read? c.dateText = some (c.midnight.instant.earlier 0) := by
  have hreading : ∀ gap, scanReading gap c.dateText = (gap []).bind (scanClock c.date) := by
    intro gap
    have := c.scanReading_dateText gap []
    rwa [List.append_nil] at this
  have hdate : scanDate c.dateText = some (c.date, []) := by
    have := c.scanDate_dateText []
    rwa [List.append_nil] at this
  have hoffset : readWithOffset? c.dateText = none := by
    unfold readWithOffset?
    rw [hreading]
    rfl
  have hletter : readWithLetter? c.dateText = none := by
    unfold readWithLetter?
    rw [hreading]
    rfl
  have hblank : readWithBlank? c.dateText = none := by
    unfold readWithBlank?
    rw [hreading]
    rfl
  have hread : readDate? c.dateText = some (c.midnight.instant.earlier 0) := by
    have hmidnight : c.midnight.reading = ⟨c.date, 0, 0, 0, 0⟩ :=
      congrArg (ClockReading.mk c.date 0 0 0) (nano_eq_zero rfl)
    refine (bind_of_eq_some hdate).trans ?_
    dsimp only
    rw [if_pos rfl, ← hmidnight]
    exact c.midnight.ofReading?_reading (by decide)
  unfold read?
  rw [c.readInternet?_dateText, hoffset, hletter, hblank, hread]
  rfl

/-- All texts of the time in UTC are read as its instant. -/
theorem read?_of_mem_textsInUtc : ∀ text ∈ c.textsInUtc, read? text = some c.instant := by
  have hcolon : ZoneOffset.utc.colonText = "+00:00".toList := by decide
  have hplain : ' ' :: ZoneOffset.utc.plainText = " +0000".toList := by decide
  have hseconds : ZoneOffset.utc.seconds = 0 := rfl
  have hletter : scanZone ['Z'] = some (0, []) := rfl
  have hzone := ZoneOffset.utc.scanZone_colonText
  have hoffset := c.read?_offset .utc
  rw [hcolon, hseconds] at hzone
  rw [hplain, hseconds] at hoffset
  rw [← c.earlier_zero_instant]
  unfold textsInUtc
  simp only [List.forall_mem_cons]
  exact ⟨c.read?_zone hletter (endsFraction_cons _ (by decide)) (by decide),
    c.read?_zone hzone (endsFraction_cons _ (by decide)) (by decide), hoffset, c.read?_letter,
    c.read?_blank, List.forall_mem_nil _⟩

/-- All texts of the time in a zone are read as the instant that is as much earlier. -/
theorem read?_of_mem_textsInZone (o : ZoneOffset) :
    ∀ text ∈ c.textsInZone o, read? text = some (c.instant.earlier o.seconds) := by
  have hend : EndsFraction o.colonText :=
    endsFraction_cons _ ⟨o.sign_spec.1, o.sign_spec.2.1⟩
  unfold textsInZone
  simp only [List.forall_mem_cons]
  exact ⟨c.read?_zone o.scanZone_colonText hend o.natAbs_seconds_lt, c.read?_offset o,
    List.forall_mem_nil _⟩

end CivilTime

/-! ## Milliseconds -/

namespace Instant

/-- An instant with whole milliseconds and no leap second is the one after that many. -/
theorem ofEpochMillis?_of_epochNanos {t : Instant} {ms : Int} (hday : isDayInRange t.day = true)
    (hsecond : t.second < 86400) (hnano : t.nano < 10 ^ 9) (hms : ms * 10 ^ 6 = t.epochNanos) :
    ofEpochMillis? ms = some t := by
  unfold epochNanos at hms
  have hcount : ms / 1000 = t.day * 86400 + t.second := by omega
  have hdate : (t.day * 86400 + t.second) / 86400 = t.day := by omega
  have hrest : ((t.day * 86400 + t.second) % 86400).toNat = t.second := by omega
  have hmillis : (ms % 1000).toNat * 1000000 = t.nano := by omega
  unfold ofEpochMillis?
  dsimp only
  rw [hcount, hdate, if_pos hday, hrest, hmillis]

/-- The milliseconds of an instant have 64 bits. -/
theorem exists_int64_of_dvd {t : Instant} (hday : isDayInRange t.day = true)
    (hsecond : t.second < 86400) (hnano : t.nano < 10 ^ 9) (hwhole : 10 ^ 6 ∣ t.epochNanos) :
    ∃ ms : Int64, ms.toInt * 10 ^ 6 = t.epochNanos := by
  obtain ⟨ms, hms⟩ := hwhole
  have hrange := isDayInRange_iff.1 hday
  unfold epochNanos at hms ⊢
  refine ⟨.ofInt ms, ?_⟩
  rw [Int64.toInt_ofInt_of_le (by omega) (by omega), hms, Int.mul_comm]

end Instant

namespace Coercion

/-- A text is a timestamp where it is read as one. -/
theorem timestamp_of_read? {text : List Char} {t : Instant} (h : Instant.read? text = some t) :
    timestamp (.string (.ofList text)) = .ok t := by
  unfold timestamp
  dsimp only
  rw [String.toList_ofList, h]
  rfl

/-- Whole milliseconds of a time in a zone are a timestamp as a JSON integer. -/
theorem timestamp_of_dvd (c : CivilTime) {offset : Int} (hoffset : offset.natAbs < 86400)
    (hwhole : 10 ^ 6 ∣ (c.instant.earlier offset).epochNanos) :
    ∃ ms : Int64, ms.toInt * 10 ^ 6 = (c.instant.earlier offset).epochNanos ∧
      timestamp (.ofInt64 ms) = .ok (c.instant.earlier offset) := by
  obtain ⟨hday, hsecond, hnano⟩ := c.earlier_instant_spec hoffset
  obtain ⟨ms, hms⟩ := Instant.exists_int64_of_dvd hday hsecond hnano hwhole
  refine ⟨ms, hms, ?_⟩
  refine bind_eq_ok_iff.2 ⟨ms, integer_ofInt64 ms, ?_⟩
  rw [Instant.ofEpochMillis?_of_epochNanos hday hsecond hnano hms]
  rfl

/-- A time that is written in UTC is the same instant in each layout: the one at which a clock in
UTC shows the time. With an offset it is as much earlier, and a date alone is its midnight. Each of
these instants is also that of its milliseconds, where they are whole. -/
theorem timestamp_of_civilTime (c : CivilTime) (o : ZoneOffset) :
    (∀ text ∈ c.textsInUtc, timestamp (.string (.ofList text)) = .ok c.instant) ∧
      (∀ text ∈ c.textsInZone o,
        timestamp (.string (.ofList text)) = .ok (c.instant.earlier o.seconds)) ∧
      timestamp (.string (.ofList c.dateText)) = .ok c.midnight.instant ∧
      (∀ t ∈ [c.instant, c.instant.earlier o.seconds, c.midnight.instant],
        10 ^ 6 ∣ t.epochNanos →
          ∃ ms : Int64, ms.toInt * 10 ^ 6 = t.epochNanos ∧ timestamp (.ofInt64 ms) = .ok t) ∧
      c.instant.shown = c.reading ∧
      (c.instant.earlier o.seconds).epochNanos = c.instant.epochNanos - o.seconds * 10 ^ 9 := by
  refine ⟨fun text htext => timestamp_of_read? (c.read?_of_mem_textsInUtc text htext),
    fun text htext => timestamp_of_read? (c.read?_of_mem_textsInZone o text htext),
    timestamp_of_read? ?_, ?_, c.shown_instant, Instant.epochNanos_earlier _ _⟩
  · rw [c.read?_date, c.midnight.earlier_zero_instant]
  · rw [← c.earlier_zero_instant, ← c.midnight.earlier_zero_instant]
    simp only [List.forall_mem_cons]
    refine ⟨timestamp_of_dvd c (by decide), ?_, timestamp_of_dvd c.midnight (by decide),
      List.forall_mem_nil _⟩
    rw [c.earlier_zero_instant]
    exact timestamp_of_dvd c o.natAbs_seconds_lt

/-- The last second of a year, which in UTC is one of the next year if the zone is behind. The
fraction has more digits than are read. -/
theorem timestamp_of_civilTime_year_end :
    timestamp (.string "2023-12-31T23:59:59.123000000999Z") = .ok ⟨19722, 86399, 123000000⟩ ∧
      timestamp (.string "2023-12-31T23:59:59.123000000999-01:30") =
        .ok ⟨19723, 5399, 123000000⟩ ∧
      timestamp (.string "2023-12-31 23:59:59.123000000999 -0130") =
        .ok ⟨19723, 5399, 123000000⟩ ∧
      timestamp (.ofInt64 1704072599123) = .ok ⟨19723, 5399, 123000000⟩ := by
  let c : CivilTime := ⟨⟨2023, 12, 31⟩, 23, 59, 59, "123000000999".toList, by decide, by decide,
    by decide, by decide, by decide, List.all_eq_true.1 (by decide)⟩
  let o : ZoneOffset := ⟨true, 1, 30, by decide, by decide⟩
  have htimes : c.instant = ⟨19722, 86399, 123000000⟩ ∧
      c.instant.earlier o.seconds = ⟨19723, 5399, 123000000⟩ := by
    decide +kernel +zetaReduce
  have htexts : "2023-12-31T23:59:59.123000000999Z".toList ∈ c.textsInUtc ∧
      "2023-12-31T23:59:59.123000000999-01:30".toList ∈ c.textsInZone o ∧
      "2023-12-31 23:59:59.123000000999 -0130".toList ∈ c.textsInZone o := by
    decide +kernel +zetaReduce
  obtain ⟨hutc, hzone, -, hmillis, -⟩ := timestamp_of_civilTime c o
  have hlater := hmillis (c.instant.earlier o.seconds) (by simp)
  rw [htimes.1] at hutc
  rw [htimes.2] at hzone hlater
  have hnanos : Instant.epochNanos ⟨19723, 5399, 123000000⟩ = 1704072599123 * 10 ^ 6 := rfl
  obtain ⟨ms, hms, hread⟩ := hlater (by rw [hnanos]; exact Int.dvd_mul_left _ _)
  have hvalue : ms = 1704072599123 := by
    rw [hnanos] at hms
    exact Int64.toInt_inj.1 (Int.eq_of_mul_eq_mul_right (by decide) hms)
  rw [hvalue] at hread
  have hletter := hutc _ htexts.1
  have hcolon := hzone _ htexts.2.1
  have hplain := hzone _ htexts.2.2
  rw [String.ofList_toList] at hletter hcolon hplain
  exact ⟨hletter, hcolon, hplain, hread⟩

end Coercion

end ChangeFeed
