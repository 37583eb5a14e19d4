import Mathlib.Algebra.Order.Ring.Nat
import ChangeFeed.Instant.Calendar

/-!
# Days and dates

Every day has a date that exists (`Date.isValid_ofDayNumber`), and that date has the number of the
day (`Date.dayNumber_ofDayNumber`). The year comes off first: what is left is shorter than the year
(`Date.yearOfDay_spec`). Then the months come off one after the other (`Date.monthOfDay_spec`).

No two dates that exist have the same number (`Date.ofDayNumber_dayNumber`). The years follow one
another without gaps (`Date.daysBeforeYear_succ`), so that only one of them has a given day, and so
do the months of a year.
-/

namespace ChangeFeed.Date

/-- Which years are leap years. -/
theorem isLeapYear_iff (year : Int) :
    isLeapYear year = true ↔ year % 4 = 0 ∧ (year % 100 ≠ 0 ∨ year % 400 = 0) := by
  simp only [isLeapYear, Bool.and_eq_true, Bool.or_eq_true, decide_eq_true_eq]

/-- The months of a year make up its days. -/
theorem sum_monthLengths (leap : Bool) :
    (monthLengths leap).sum = if leap then 366 else 365 := by
  cases leap <;> rfl

/-- The years before a day, by how many of each span are over: of 400 years, of 100, of 4 and of
one. -/
theorem yearOfDay_eq (n : Int) :
    ∃ q400 q100 q4 q1 : Int, 0 ≤ q100 ∧ q100 ≤ 3 ∧ 0 ≤ q4 ∧ q4 ≤ 24 ∧ 0 ≤ q1 ∧ q1 ≤ 3 ∧
      (yearOfDay n).1 = 400 * q400 + 100 * q100 + 4 * q4 + q1 + 1 ∧
      146097 * q400 + 36524 * q100 + 1461 * q4 + 365 * q1 + (yearOfDay n).2 = n ∧
      (yearOfDay n).2 ≤ 365 ∧
      ((yearOfDay n).2 = 365 → q1 = 3 ∧ (q4 = 24 → q100 = 3)) := by
  unfold yearOfDay
  dsimp only
  generalize hr : n % 146097 = r
  generalize hq100 : min (r / 36524) 3 = q100
  generalize hr100 : r - 36524 * q100 = r100
  generalize hq4 : r100 / 1461 = q4
  generalize hr4 : r100 % 1461 = r4
  generalize hq1 : min (r4 / 365) 3 = q1
  -- Only the last of four centuries has a day more than 24 spans of four years and a short one.
  have hcentury : 0 ≤ q100 ∧ q100 ≤ 3 ∧ 0 ≤ r100 ∧ r100 ≤ 36524 ∧ (r100 = 36524 → q100 = 3) := by
    omega
  refine ⟨n / 146097, q100, q4, q1, ?_, ?_, ?_, ?_, ?_, ?_, rfl, ?_, ?_, ?_⟩ <;> omega

/-- The years before a day and the days left in its own year make up the number of the day, and the
year has that many days. -/
theorem yearOfDay_spec (n : Int) :
    daysBeforeYear (yearOfDay n).1 + (yearOfDay n).2 = n ∧
      (yearOfDay n).2 < (monthLengths (isLeapYear (yearOfDay n).1)).sum := by
  obtain ⟨q400, q100, q4, q1, h100, h100', h4, h4', h1, h1', hyear, hn, hday, hlast⟩ :=
    yearOfDay_eq n
  have hleap := isLeapYear_iff (yearOfDay n).1
  rw [hyear] at hleap ⊢
  refine ⟨?_, ?_⟩
  · have hby4 : (400 * q400 + 100 * q100 + 4 * q4 + q1) / 4 = 100 * q400 + 25 * q100 + q4 := by
      omega
    have hby100 : (400 * q400 + 100 * q100 + 4 * q4 + q1) / 100 = 4 * q400 + q100 := by
      omega
    have hby400 : (400 * q400 + 100 * q100 + 4 * q4 + q1) / 400 = q400 := by
      omega
    unfold daysBeforeYear
    dsimp only
    rw [Int.add_sub_cancel, hby4, hby100, hby400]
    omega
  · rw [sum_monthLengths]
    split
    · omega
    · next hcommon =>
      -- In a common year the last day would be that of a leap year.
      have : (yearOfDay n).2 ≠ 365 := by
        intro hlong
        have := hlast hlong
        exact hcommon (hleap.2 (by omega))
      omega

/-- The months before a day and the days left in its own month make up the day of the year, and the
month has that many days. -/
theorem monthOfDay_spec {lengths : List Nat} {n : Nat} (h : n < lengths.sum) :
    (lengths.take (monthOfDay lengths n).1).sum + (monthOfDay lengths n).2 = n ∧
      (monthOfDay lengths n).2 < lengths.getD (monthOfDay lengths n).1 0 := by
  induction lengths generalizing n with
  | nil => exact absurd h (Nat.not_lt_zero n)
  | cons length rest ih =>
    unfold monthOfDay
    split
    · next hfirst => exact ⟨Nat.zero_add n, hfirst⟩
    · next hlater =>
      rw [List.sum_cons] at h
      obtain ⟨hsum, hlt⟩ := ih (n := n - length) (by omega)
      cases hrest : monthOfDay rest (n - length) with
      | mk month day =>
        rw [hrest] at hsum hlt
        refine ⟨?_, hlt⟩
        dsimp only at hsum ⊢
        rw [List.take_succ_cons, List.sum_cons]
        omega

/-- The date of a day by the parts that are taken off. -/
theorem ofDayNumber_eq (n : Int) :
    ∃ year dayOfYear, yearOfDay (n + epochOffset) = (year, dayOfYear) ∧
      ofDayNumber n = ⟨year, (monthOfDay (monthLengths (isLeapYear year)) dayOfYear).1 + 1,
        (monthOfDay (monthLengths (isLeapYear year)) dayOfYear).2 + 1⟩ :=
  ⟨_, _, rfl, rfl⟩

/-- The date of a day exists. -/
theorem isValid_ofDayNumber (n : Int) : (ofDayNumber n).isValid = true := by
  obtain ⟨year, dayOfYear, hyear, hdate⟩ := ofDayNumber_eq n
  obtain ⟨-, hday⟩ := yearOfDay_spec (n + epochOffset)
  rw [hyear] at hday
  obtain ⟨-, hlt⟩ := monthOfDay_spec hday
  rw [hdate]
  simp only [isValid, Bool.and_eq_true, decide_eq_true_eq, Nat.add_sub_cancel]
  exact ⟨⟨Nat.le_add_left 1 _, Nat.le_add_left 1 _⟩, hlt⟩

/-- The date of a day has the number of the day. -/
theorem dayNumber_ofDayNumber (n : Int) : (ofDayNumber n).dayNumber = n := by
  obtain ⟨year, dayOfYear, hyear, hdate⟩ := ofDayNumber_eq n
  obtain ⟨hsum, hday⟩ := yearOfDay_spec (n + epochOffset)
  rw [hyear] at hsum hday
  obtain ⟨hmonths, -⟩ := monthOfDay_spec hday
  rw [hdate]
  unfold dayNumber daysBeforeMonth
  rw [← List.sum_eq_foldl, Nat.add_sub_cancel]
  dsimp only at hsum hmonths ⊢
  omega

/-- No month is longer than 31 days, and there are twelve. -/
theorem getD_monthLengths_le (leap : Bool) (i : Nat) :
    (monthLengths leap).getD i 0 ≤ if i < 12 then 31 else 0 := by
  have hlength : (monthLengths leap).length = 12 := rfl
  have hmonth : ∀ length ∈ monthLengths leap, length ≤ 31 := by
    cases leap <;> decide
  rw [List.getD_eq_getElem?_getD]
  split
  · next hi =>
    rw [List.getElem?_eq_getElem (hlength ▸ hi)]
    exact hmonth _ (List.getElem_mem _)
  · next hi =>
    rw [List.getElem?_eq_none (by omega)]
    exact Nat.le_refl 0

/-- A date that exists has a month from 1 to 12 and a day from 1 to 31. -/
theorem bounds_of_isValid {d : Date} (h : d.isValid = true) :
    1 ≤ d.month ∧ d.month ≤ 12 ∧ 1 ≤ d.day ∧ d.day ≤ 31 := by
  simp only [isValid, Bool.and_eq_true, decide_eq_true_eq] at h
  obtain ⟨⟨hmonth, hday⟩, hlength⟩ := h
  have := getD_monthLengths_le (isLeapYear d.year) (d.month - 1)
  split at this <;> omega

/-- A year is followed by the next one after all of its days. -/
theorem daysBeforeYear_succ (year : Int) :
    daysBeforeYear (year + 1) = daysBeforeYear year + (monthLengths (isLeapYear year)).sum := by
  unfold daysBeforeYear
  dsimp only
  rw [sum_monthLengths, Int.add_sub_cancel]
  split
  · next hleap =>
    have := (isLeapYear_iff year).1 hleap
    omega
  · next hcommon =>
    have := mt (isLeapYear_iff year).2 hcommon
    omega

/-- Later years begin later. -/
theorem daysBeforeYear_le {year year' : Int} (h : year ≤ year') :
    daysBeforeYear year ≤ daysBeforeYear year' := by
  unfold daysBeforeYear
  dsimp only
  omega

/-- The year of a day is the one that has the day. -/
theorem yearOfDay_of_lt {year : Int} {dayOfYear : Nat}
    (h : dayOfYear < (monthLengths (isLeapYear year)).sum) :
    yearOfDay (daysBeforeYear year + dayOfYear) = (year, dayOfYear) := by
  obtain ⟨hsum, hlt⟩ := yearOfDay_spec (daysBeforeYear year + dayOfYear)
  generalize yearOfDay (daysBeforeYear year + dayOfYear) = found at hsum hlt
  obtain ⟨foundYear, foundDay⟩ := found
  dsimp only at hsum hlt
  have hyear : foundYear = year := by
    rcases Int.lt_trichotomy foundYear year with hbefore | hsame | hafter
    · have hnext := daysBeforeYear_le (Int.add_one_le_of_lt hbefore)
      rw [daysBeforeYear_succ] at hnext
      omega
    · exact hsame
    · have hnext := daysBeforeYear_le (Int.add_one_le_of_lt hafter)
      rw [daysBeforeYear_succ] at hnext
      omega
  subst hyear
  rw [show foundDay = dayOfYear by omega]

/-- The month of a day is the one that has the day. -/
theorem monthOfDay_of_lt {lengths : List Nat} {month day : Nat} (h : day < lengths.getD month 0) :
    (lengths.take month).sum + day < lengths.sum ∧
      monthOfDay lengths ((lengths.take month).sum + day) = (month, day) := by
  induction lengths generalizing month with
  | nil => exact absurd h (Nat.not_lt_zero day)
  | cons length rest ih =>
    cases month with
    | zero =>
      have hfirst : day < length := h
      rw [List.take_zero, List.sum_nil, Nat.zero_add, List.sum_cons, monthOfDay, if_pos hfirst]
      exact ⟨by omega, rfl⟩
    | succ month =>
      have hday : day < rest.getD month 0 := h
      obtain ⟨hlt, hmonth⟩ := ih hday
      rw [List.take_succ_cons, List.sum_cons, List.sum_cons, monthOfDay, if_neg (by omega),
        Nat.add_assoc, Nat.add_sub_cancel_left, hmonth]
      exact ⟨by omega, rfl⟩

/-- The number of a date that exists is made up of the years before its own and the day of the year,
which is one of its month. -/
theorem dayNumber_eq {d : Date} (h : d.isValid = true) :
    ∃ dayOfYear : Nat, dayOfYear < (monthLengths (isLeapYear d.year)).sum ∧
      d.dayNumber + epochOffset = daysBeforeYear d.year + dayOfYear ∧
      monthOfDay (monthLengths (isLeapYear d.year)) dayOfYear = (d.month - 1, d.day - 1) := by
  obtain ⟨-, -, hday, -⟩ := bounds_of_isValid h
  simp only [isValid, Bool.and_eq_true, decide_eq_true_eq] at h
  obtain ⟨hlt, hmonth⟩ := monthOfDay_of_lt
    (show d.day - 1 < (monthLengths (isLeapYear d.year)).getD (d.month - 1) 0 by omega)
  refine ⟨_, hlt, ?_, hmonth⟩
  unfold dayNumber daysBeforeMonth
  rw [← List.sum_eq_foldl]
  omega

/-- A date that exists is the date of its number. -/
theorem ofDayNumber_dayNumber {d : Date} (h : d.isValid = true) : ofDayNumber d.dayNumber = d := by
  obtain ⟨hmonth, -, hday, -⟩ := bounds_of_isValid h
  obtain ⟨dayOfYear, hlt, hnumber, hfound⟩ := dayNumber_eq h
  obtain ⟨year, found, hyear, hdate⟩ := ofDayNumber_eq d.dayNumber
  rw [hnumber, yearOfDay_of_lt hlt] at hyear
  cases hyear
  rw [hdate, hfound, Nat.sub_add_cancel hmonth, Nat.sub_add_cancel hday]

end ChangeFeed.Date
