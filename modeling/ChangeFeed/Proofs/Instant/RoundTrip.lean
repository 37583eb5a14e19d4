import ChangeFeed.Instant.Printer
import ChangeFeed.Proofs.Instant.Calendar
import ChangeFeed.Proofs.Instant.Reading

/-!
# Reading a timestamp that was written

`Instant.shown` is what a clock in UTC shows at an instant. Its text in the internet layout is read
as this reading (`Instant.readInternet?_chars`), and the clock shows it at that instant only
(`Instant.ofReading?_shown`). So every instant on the clock whose year has four digits is read back
from its text (`Instant.read?_chars`), with every digit of its fraction and with a leap second as
one.
-/

namespace ChangeFeed

open Text

/-! ## Digits -/

/-- The decimal digits of a number are digits. -/
theorem isDigits_padded (width n : Nat) : IsDigits (padded width n) := by
  intro c hc
  rcases List.mem_append.1 hc with hzero | hdigit
  · rw [List.eq_of_mem_replicate hzero]
    rfl
  · exact Nat.isDigit_of_mem_toDigits (by decide : 0 < 10) (by decide) hdigit

/-- They are as many as asked for, where the number has no more. -/
theorem length_padded {width n : Nat} (hwidth : 0 < width) (hn : n < 10 ^ width) :
    (padded width n).length = width := by
  have hlength : (Nat.toDigits 10 n).length ≤ width :=
    (Nat.length_toDigits_le_iff (Nat.le_add_left 2 8) hwidth).2 hn
  unfold padded
  rw [List.length_append, List.length_replicate]
  exact Nat.sub_add_cancel hlength

namespace Instant

/-- They write the number. -/
theorem digitsValue_padded (width n : Nat) : digitsValue (padded width n) = n := by
  unfold digitsValue padded
  rw [Nat.ofDigitChars_append, Nat.ofDigitChars_replicate_zero, Nat.mul_zero,
    Nat.ofDigitChars_ten_toDigits]

/-- A number that was written with a fixed width is read back. -/
theorem scanFixed_padded {width n : Nat} (hwidth : 0 < width) (hn : n < 10 ^ width)
    (rest : List Char) : scanFixed width (padded width n ++ rest) = some (n, rest) := by
  have hlength := length_padded hwidth hn
  unfold scanFixed
  dsimp only
  rw [List.take_left' hlength, List.drop_left' hlength, digitsValue_padded,
    if_pos ⟨hlength, List.all_eq_true.2 (isDigits_padded width n)⟩]

/-- A character that stands in front is passed over. -/
theorem scanChar_cons (c : Char) (rest : List Char) : scanChar c (c :: rest) = some rest :=
  if_pos rfl

/-- A fraction with up to nine digits is read back. -/
theorem scanFraction_padded {width n : Nat} (hwidth : 0 < width) (hlast : width ≤ 9)
    (hn : n < 10 ^ width) (rest : List Char) (hrest : ∀ c ∈ rest.head?, c.isDigit = false) :
    scanFraction ('.' :: (padded width n ++ rest)) = some (n * 10 ^ (9 - width), rest) := by
  have hlength := length_padded hwidth hn
  have hne : padded width n ≠ [] := List.ne_nil_of_length_pos (by omega)
  obtain ⟨htake, hdrop⟩ := span_isDigit (isDigits_padded width n) hrest
  rw [scanFraction]
  dsimp only
  rw [htake, hdrop, if_neg hne, List.take_of_length_le (hlength.trans_le hlast), hlength,
    digitsValue_padded, Nat.pow_eq]

/-- The nanoseconds of a second are read back, with however many digits they were written. -/
theorem scanFraction_fractionText {nano : Nat} (h : nano < 10 ^ 9) :
    scanFraction (fractionText nano ++ ['Z']) = some (nano, ['Z']) := by
  have hrest : ∀ c ∈ ['Z'].head?, c.isDigit = false := by
    rintro c ⟨⟩
    rfl
  unfold fractionText
  split
  · next hzero =>
    rw [hzero]
    rfl
  split
  · next hmillis =>
    rw [List.cons_append, scanFraction_padded (by decide) (by decide) (by omega) _ hrest]
    show some (nano / 1000000 * 1000000, ['Z']) = _
    rw [Nat.div_mul_cancel (Nat.dvd_of_mod_eq_zero hmillis)]
  split
  · next hmicros =>
    rw [List.cons_append, scanFraction_padded (by decide) (by decide) (by omega) _ hrest]
    show some (nano / 1000 * 1000, ['Z']) = _
    rw [Nat.div_mul_cancel (Nat.dvd_of_mod_eq_zero hmicros)]
  · rw [List.cons_append, scanFraction_padded (by decide) (by decide) h _ hrest]
    rw [Nat.sub_self, Nat.pow_zero, Nat.mul_one]

/-! ## Instants -/

/-- What a clock in UTC shows at an instant. -/
def shown (t : Instant) : ClockReading where
  date := .ofDayNumber t.day
  hour := t.second / 3600
  minute := t.second / 60 % 60
  second := if 1000000000 ≤ t.nano then t.second % 60 + 1 else t.second % 60
  nano := if 1000000000 ≤ t.nano then t.nano - 1000000000 else t.nano

variable {t : Instant}

/-- On the clock second 60 is a leap second. -/
theorem IsOnClock.second_shown (h : t.IsOnClock) :
    t.shown.second = 60 ∧ t.second % 60 = 59 ∧ t.nano = t.shown.nano + 10 ^ 9 ∨
      t.shown.second = t.second % 60 ∧ t.shown.second ≠ 60 ∧ t.nano = t.shown.nano := by
  unfold shown
  dsimp only
  split
  · next hleap =>
    have := h.leap hleap
    exact .inl (by omega)
  · exact .inr (by omega)

/-- No second is behind a leap second. -/
theorem IsOnClock.second_shown_le (h : t.IsOnClock) : t.shown.second ≤ 60 := by
  rcases h.second_shown with ⟨hlast, -⟩ | ⟨hmod, -⟩ <;> omega

/-- The instant is the one at which the clock shows its reading. -/
theorem ofReading?_shown (h : t.IsOnClock) : ofReading? t.shown 0 = some t := by
  have hsecond := h.second
  have hday : t.shown.date.dayNumber = t.day := Date.dayNumber_ofDayNumber t.day
  have hcount : t.shown.secondOfDay = t.second := by
    unfold ClockReading.secondOfDay
    rcases h.second_shown with ⟨hlast, hmod, -⟩ | ⟨hmod, hlast, -⟩
    · rw [if_pos hlast]
      unfold shown
      dsimp only
      omega
    · rw [if_neg hlast, hmod]
      unfold shown
      dsimp only
      omega
  rw [ofReading?_eq_some_iff, hday, hcount]
  refine ⟨?_, h.day, by omega, by omega, ?_⟩
  · have hlow := h.second_shown_le
    unfold ClockReading.isValid
    rw [hday, h.day]
    simp only [Bool.and_true, Bool.and_eq_true, decide_eq_true_eq]
    unfold shown
    dsimp only
    exact ⟨⟨⟨Date.isValid_ofDayNumber t.day, by omega⟩, by omega⟩, hlow⟩
  · rcases h.second_shown with ⟨hlast, -, hnano⟩ | ⟨-, hlast, hnano⟩
    · rw [if_pos hlast, hnano]
    · rw [if_neg hlast, hnano]

/-- The text of an instant writes what a clock in UTC shows. -/
theorem chars_eq (t : Instant) :
    t.chars = yearText t.shown.date.year ++
      '-' :: (padded 2 t.shown.date.month ++ '-' :: (padded 2 t.shown.date.day ++
      'T' :: (padded 2 t.shown.hour ++ ':' :: (padded 2 t.shown.minute ++
      ':' :: (padded 2 t.shown.second ++ (fractionText t.shown.nano ++ ['Z'])))))) := by
  unfold chars shown
  simp only [List.append_assoc, List.cons_append]

/-- In the internet layout the text of an instant is read as what a clock in UTC shows. -/
theorem readInternet?_chars (h : t.IsOnClock) (hfirst : 0 ≤ t.shown.date.year)
    (hlast : t.shown.date.year ≤ 9999) : readInternet? t.chars = some t := by
  obtain ⟨-, hmonth, -, hday⟩ : 1 ≤ t.shown.date.month ∧ t.shown.date.month ≤ 12 ∧
      1 ≤ t.shown.date.day ∧ t.shown.date.day ≤ 31 :=
    Date.bounds_of_isValid (Date.isValid_ofDayNumber t.day)
  have hyear : (t.shown.date.year.toNat : Int) = t.shown.date.year := Int.toNat_of_nonneg hfirst
  have hhour : t.shown.hour < 24 := by
    have := h.second
    unfold shown
    dsimp only
    omega
  have hminute : t.shown.minute < 60 := Nat.mod_lt _ (by decide)
  have hsecond : t.shown.second ≤ 60 := h.second_shown_le
  have hnano : t.shown.nano < 10 ^ 9 := by
    have := h.nano
    unfold shown
    dsimp only
    split <;> omega
  rw [chars_eq, yearText, if_pos ⟨hfirst, hlast⟩]
  refine Option.bind_eq_some_iff.2 ⟨_, scanFixed_padded (by decide) (by omega) _, ?_⟩
  refine Option.bind_eq_some_iff.2 ⟨_, scanChar_cons _ _, ?_⟩
  refine Option.bind_eq_some_iff.2 ⟨_, scanFixed_padded (by decide) (by omega) _, ?_⟩
  refine Option.bind_eq_some_iff.2 ⟨_, scanChar_cons _ _, ?_⟩
  refine Option.bind_eq_some_iff.2 ⟨_, scanFixed_padded (by decide) (by omega) _, ?_⟩
  refine Option.bind_eq_some_iff.2 ⟨_, scanFixed_padded (by decide) (by omega) _, ?_⟩
  refine Option.bind_eq_some_iff.2 ⟨_, scanChar_cons _ _, ?_⟩
  refine Option.bind_eq_some_iff.2 ⟨_, scanFixed_padded (by decide) (by omega) _, ?_⟩
  refine Option.bind_eq_some_iff.2 ⟨_, scanChar_cons _ _, ?_⟩
  refine Option.bind_eq_some_iff.2 ⟨_, scanFixed_padded (by decide) (by omega) _, ?_⟩
  refine Option.bind_eq_some_iff.2 ⟨_, scanFraction_fractionText hnano, ?_⟩
  refine Option.bind_eq_some_iff.2 ⟨_, show scanZone ['Z'] = some (0, []) from rfl, ?_⟩
  rw [hyear]
  exact ofReading?_shown h

/-- An instant on the clock whose year has four digits is read back from its text. -/
theorem read?_chars (h : t.IsOnClock) (hfirst : 0 ≤ t.shown.date.year)
    (hlast : t.shown.date.year ≤ 9999) : read? t.chars = some t := by
  unfold read?
  rw [readInternet?_chars h hfirst hlast]
  rfl

end Instant

end ChangeFeed
