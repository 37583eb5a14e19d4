import ChangeFeed.Proofs.Record.Decoding
import ChangeFeed.Proofs.Text.Numeral

/-!
# What is read as an instant

An instant that is read, from a text in any layout or from milliseconds, lies on the clock: its
second is one of the day, and only behind second 59 of a minute are there more nanoseconds than a
second has (`Instant.isOnClock_of_timestamp`). Leap seconds keep to the end of a minute in UTC
because every offset is a number of whole minutes.
-/

namespace ChangeFeed

open Text

/-- What makes an instant one of the clock: its day may be one, its second is one of the day, and
its nanoseconds are those of a second or, at the end of a minute, of a second and a leap second. -/
structure Instant.IsOnClock (t : Instant) : Prop where
  day : isDayInRange t.day = true
  second : t.second < 86400
  nano : t.nano < 2 * 10 ^ 9
  leap : 10 ^ 9 ≤ t.nano → t.second % 60 = 59

/-- The second of the day that a clock shows. A leap second counts as the second before it. -/
def ClockReading.secondOfDay (r : ClockReading) : Int :=
  r.hour * 3600 + r.minute * 60 + (if r.second = 60 then 59 else r.second : Nat)

namespace Instant

/-- At which instant a clock shows a reading. -/
theorem ofReading?_eq_some_iff {r : ClockReading} {offset : Int} {t : Instant} :
    ofReading? r offset = some t ↔ r.isValid = true ∧ isDayInRange t.day = true ∧
      t.day = r.date.dayNumber + (r.secondOfDay - offset) / 86400 ∧
      t.second = ((r.secondOfDay - offset) % 86400).toNat ∧
      t.nano = if r.second = 60 then r.nano + 10 ^ 9 else r.nano := by
  have hsecond : (r.hour * 3600 + r.minute * 60 + (if r.second = 60 then 59 else r.second) : Int) =
      r.secondOfDay := by
    unfold ClockReading.secondOfDay
    split <;> rfl
  obtain ⟨day, second, nano⟩ := t
  unfold ofReading?
  dsimp only
  rw [hsecond]
  cases r.isValid with
  | false => simp
  | true =>
    simp only [Bool.not_true, Bool.false_eq_true, if_false, true_and]
    rw [Option.ite_none_right_eq_some, Option.some.injEq, Instant.mk.injEq]
    constructor <;> rintro ⟨hday, rfl, rfl, rfl⟩ <;> exact ⟨hday, rfl, rfl, rfl⟩

/-- A clock that is ahead by whole minutes shows instants of the clock. -/
theorem isOnClock_of_ofReading? {r : ClockReading} {offset : Int} {t : Instant}
    (hnano : r.nano < 10 ^ 9) (hoffset : 60 ∣ offset) (h : ofReading? r offset = some t) :
    t.IsOnClock := by
  obtain ⟨-, hday, -, hsecond, ht⟩ := ofReading?_eq_some_iff.1 h
  refine ⟨hday, by omega, ?_, fun hleap => ?_⟩
  · rw [ht]
    split <;> omega
  · -- There are as many nanoseconds only in a leap second.
    have hlast : r.second = 60 := by
      by_contra hother
      rw [ht, if_neg hother] at hleap
      omega
    rw [hsecond]
    unfold ClockReading.secondOfDay
    rw [if_pos hlast]
    omega

/-- Milliseconds from the epoch lie on the clock. -/
theorem isOnClock_of_ofEpochMillis? {ms : Int} {t : Instant} (h : ofEpochMillis? ms = some t) :
    t.IsOnClock := by
  unfold ofEpochMillis? at h
  dsimp only at h
  split at h
  · next hday =>
    cases h
    refine ⟨hday, ?_, ?_, fun hleap => absurd hleap ?_⟩ <;> dsimp only <;> omega
  · cases h

/-! ## The parts of a text -/

/-- A row of digits writes a number below the power of ten that its length gives. -/
theorem digitsValue_lt {cs : List Char} (h : IsDigits cs) : digitsValue cs < 10 ^ cs.length := by
  unfold digitsValue
  induction cs with
  | nil => exact Nat.one_pos
  | cons c cs ih =>
    have hvalue : 10 * 0 + (c.toNat - '0'.toNat) ≤ 9 := by
      have : c.toNat ≤ 57 := (Char.isDigit_iff_toNat.1 (h c List.mem_cons_self)).2
      rw [show '0'.toNat = 48 from rfl]
      omega
    have hcs := ih fun d hd => h d (List.mem_cons_of_mem c hd)
    rw [Nat.ofDigitChars_cons, Nat.ofDigitChars_eq_ofDigitChars_zero, List.length_cons]
    calc 10 ^ cs.length * (10 * 0 + (c.toNat - '0'.toNat)) + Nat.ofDigitChars 10 cs 0
        ≤ 10 ^ cs.length * 9 + Nat.ofDigitChars 10 cs 0 :=
          Nat.add_le_add_right (Nat.mul_le_mul_left _ hvalue) _
      _ < 10 ^ cs.length * 9 + 10 ^ cs.length := Nat.add_lt_add_left hcs _
      _ = 10 ^ (cs.length + 1) := by rw [Nat.pow_succ]; omega

/-- A fraction of a second is shorter than one. -/
theorem nano_lt_of_scanFraction {cs rest : List Char} {nano : Nat}
    (h : scanFraction cs = some (nano, rest)) : nano < 10 ^ 9 := by
  unfold scanFraction at h
  split at h
  · next digits =>
    dsimp only at h
    split at h
    · cases h
    · cases h
      have hdigits : IsDigits ((digits.takeWhile Char.isDigit).take 9) := fun c hc =>
        isDigits_takeWhile digits c (List.mem_of_mem_take hc)
      have hlt := digitsValue_lt hdigits
      have hlength : ((digits.takeWhile Char.isDigit).take 9).length ≤ 9 := List.length_take_le 9 _
      calc digitsValue _ * 10 ^ _
          < 10 ^ ((digits.takeWhile Char.isDigit).take 9).length *
              10 ^ (9 - ((digits.takeWhile Char.isDigit).take 9).length) :=
            Nat.mul_lt_mul_of_pos_right hlt (Nat.pow_pos (by decide))
        _ = 10 ^ 9 := by rw [← Nat.pow_add, Nat.add_sub_cancel' hlength]
  · cases h
    decide

/-- An offset is a number of whole minutes. -/
theorem dvd_of_scanOffset {gap : List Char → Option (List Char)} {cs rest : List Char}
    {offset : Int} (h : scanOffset gap cs = some (offset, rest)) : 60 ∣ offset := by
  cases cs with
  | nil => cases h
  | cons c cs =>
    obtain ⟨sign, -, h⟩ := Option.bind_eq_some_iff.1 h
    obtain ⟨⟨hours, cs₁⟩, -, h⟩ := Option.bind_eq_some_iff.1 h
    obtain ⟨cs₂, -, h⟩ := Option.bind_eq_some_iff.1 h
    obtain ⟨⟨minutes, cs₃⟩, -, h⟩ := Option.bind_eq_some_iff.1 h
    dsimp only at h
    split at h
    · cases h
      exact Dvd.dvd.mul_left (by omega) sign
    · cases h

/-- So is that of a zone. -/
theorem dvd_of_scanZone {cs rest : List Char} {offset : Int}
    (h : scanZone cs = some (offset, rest)) : 60 ∣ offset := by
  cases cs with
  | nil => cases h
  | cons c cs =>
    rw [scanZone] at h
    split at h
    · cases h
      exact dvd_zero 60
    · exact dvd_of_scanOffset h

/-- A reading in a loose layout has less than a second of nanoseconds. -/
theorem nano_lt_of_scanReading {gap : List Char → Option (List Char)} {cs rest : List Char}
    {r : ClockReading} (h : scanReading gap cs = some (r, rest)) : r.nano < 10 ^ 9 := by
  obtain ⟨⟨date, cs₁⟩, -, h⟩ := Option.bind_eq_some_iff.1 h
  obtain ⟨cs₂, -, h⟩ := Option.bind_eq_some_iff.1 h
  obtain ⟨⟨hour, cs₃⟩, -, h⟩ := Option.bind_eq_some_iff.1 h
  obtain ⟨cs₄, -, h⟩ := Option.bind_eq_some_iff.1 h
  obtain ⟨⟨minute, cs₅⟩, -, h⟩ := Option.bind_eq_some_iff.1 h
  obtain ⟨cs₆, -, h⟩ := Option.bind_eq_some_iff.1 h
  obtain ⟨⟨second, cs₇⟩, -, h⟩ := Option.bind_eq_some_iff.1 h
  obtain ⟨⟨nano, cs₈⟩, hnano, h⟩ := Option.bind_eq_some_iff.1 h
  cases h
  exact nano_lt_of_scanFraction hnano

/-! ## Texts -/

/-- In the internet layout. -/
theorem isOnClock_of_readInternet? {cs : List Char} {t : Instant}
    (h : readInternet? cs = some t) : t.IsOnClock := by
  unfold readInternet? at h
  obtain ⟨⟨year, cs₁⟩, -, h⟩ := Option.bind_eq_some_iff.1 h
  obtain ⟨cs₂, -, h⟩ := Option.bind_eq_some_iff.1 h
  obtain ⟨⟨month, cs₃⟩, -, h⟩ := Option.bind_eq_some_iff.1 h
  obtain ⟨cs₄, -, h⟩ := Option.bind_eq_some_iff.1 h
  obtain ⟨⟨day, cs₅⟩, -, h⟩ := Option.bind_eq_some_iff.1 h
  dsimp only at h
  split at h
  · split at h
    · obtain ⟨cs₆, -, h⟩ := Option.bind_eq_some_iff.1 h
      obtain ⟨⟨hour, cs₇⟩, -, h⟩ := Option.bind_eq_some_iff.1 h
      obtain ⟨cs₈, -, h⟩ := Option.bind_eq_some_iff.1 h
      obtain ⟨⟨minute, cs₉⟩, -, h⟩ := Option.bind_eq_some_iff.1 h
      obtain ⟨cs₁₀, -, h⟩ := Option.bind_eq_some_iff.1 h
      obtain ⟨⟨second, cs₁₁⟩, -, h⟩ := Option.bind_eq_some_iff.1 h
      obtain ⟨⟨nano, cs₁₂⟩, hnano, h⟩ := Option.bind_eq_some_iff.1 h
      obtain ⟨⟨offset, cs₁₃⟩, hoffset, h⟩ := Option.bind_eq_some_iff.1 h
      dsimp only at h
      split at h
      · exact isOnClock_of_ofReading? (nano_lt_of_scanFraction hnano) (dvd_of_scanZone hoffset) h
      · cases h
    · cases h
  · cases h

/-- With an offset behind a blank. -/
theorem isOnClock_of_readWithOffset? {cs : List Char} {t : Instant}
    (h : readWithOffset? cs = some t) : t.IsOnClock := by
  obtain ⟨⟨reading, cs₁⟩, hreading, h⟩ := Option.bind_eq_some_iff.1 h
  obtain ⟨⟨offset, cs₂⟩, hoffset, h⟩ := Option.bind_eq_some_iff.1 h
  dsimp only at h
  split at h
  · exact isOnClock_of_ofReading? (nano_lt_of_scanReading hreading) (dvd_of_scanOffset hoffset) h
  · cases h

/-- In a loose layout that ends with the time. -/
theorem isOnClock_of_scanReading {gap : List Char → Option (List Char)} {cs : List Char}
    {t : Instant}
    (h : (scanReading gap cs).bind (fun (reading, cs) =>
      if cs = [] then ofReading? reading 0 else none) = some t) : t.IsOnClock := by
  obtain ⟨⟨reading, cs₁⟩, hreading, h⟩ := Option.bind_eq_some_iff.1 h
  dsimp only at h
  split at h
  · exact isOnClock_of_ofReading? (nano_lt_of_scanReading hreading) (dvd_zero 60) h
  · cases h

/-- With the date alone. -/
theorem isOnClock_of_readDate? {cs : List Char} {t : Instant} (h : readDate? cs = some t) :
    t.IsOnClock := by
  obtain ⟨⟨date, cs₁⟩, -, h⟩ := Option.bind_eq_some_iff.1 h
  dsimp only at h
  split at h
  · exact isOnClock_of_ofReading? (Nat.pow_pos (by decide)) (dvd_zero 60) h
  · cases h

/-- A text that is read, in whatever layout, is of an instant on the clock. -/
theorem isOnClock_of_read? {cs : List Char} {t : Instant} (h : read? cs = some t) :
    t.IsOnClock := by
  unfold read? at h
  simp only [Option.orElse_eq_orElse, Option.orElse_eq_or] at h
  rcases Option.or_eq_some_iff.1 h with h | ⟨-, h⟩
  · exact isOnClock_of_readInternet? h
  rcases Option.or_eq_some_iff.1 h with h | ⟨-, h⟩
  · exact isOnClock_of_readWithOffset? h
  rcases Option.or_eq_some_iff.1 h with h | ⟨-, h⟩
  · exact isOnClock_of_scanReading h
  rcases Option.or_eq_some_iff.1 h with h | ⟨-, h⟩
  · exact isOnClock_of_scanReading h
  · exact isOnClock_of_readDate? h

/-- A value that is taken as a timestamp is one of the clock. -/
theorem isOnClock_of_timestamp {v : Json} {t : Instant} (h : Coercion.timestamp v = .ok t) :
    t.IsOnClock := by
  -- A refusal is the same error whether there is a number or a text.
  have hsome : ∀ {t? : Option Instant}, t?.elim (.error .timestamp) .ok =
      (.ok t : Except Expected Instant) → t? = some t := by
    intro t? hok
    cases t? with
    | none => cases hok
    | some t' => rw [Except.ok.inj hok]
  unfold Coercion.timestamp at h
  split at h
  · obtain ⟨millis, -, h⟩ := bind_eq_ok_iff.1 h
    exact isOnClock_of_ofEpochMillis? (hsome h)
  · exact isOnClock_of_read? (hsome h)
  · cases h

end Instant

end ChangeFeed
