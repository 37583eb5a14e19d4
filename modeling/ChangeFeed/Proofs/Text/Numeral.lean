import ChangeFeed.Binary64.Arithmetic
import ChangeFeed.Proofs.Binary64.Rounding
import ChangeFeed.Text.Numeral

/-!
# Numerals and what they denote

An integer is written as an optional sign and digits, a decimal number as an optional sign, digits
with an optional point among or around them, and an optional exponent. `IntText` and
`Numeral.IsText` say so without regard to how they are read, and `Numeral.value` is the exact
number that is meant.

Reading follows the grammar: `readInt?` reads exactly the texts of integers
(`readInt?_eq_some_iff`), and taking a text apart gives the one numeral it is the text of
(`readNumeral?_eq_some_iff`). What is read as a finite binary64 number is such a text, rounded
(`exists_numeral_of_readBinary64?`).
-/

namespace ChangeFeed.Text

/-! ## The grammar -/

/-- The texts of a sign. -/
inductive SignText : (negative : Bool) → List Char → Prop
  | none : SignText false []
  | plus : SignText false ['+']
  | minus : SignText true ['-']

/-- A row of digits. -/
def IsDigits (cs : List Char) : Prop :=
  ∀ c ∈ cs, c.isDigit = true

/-- The texts of an integer. -/
inductive IntText : Int → List Char → Prop
  | intro {negative sign digits} (hsign : SignText negative sign) (hdigits : IsDigits digits)
      (hne : digits ≠ []) :
      IntText (Binary64.sign negative * Nat.ofDigitChars 10 digits 0) (sign ++ digits)

/-- The texts of a fraction, which may be missing, point and all. -/
inductive FractionText : List Char → List Char → Prop
  | none : FractionText [] []
  | some (digits : List Char) : FractionText digits ('.' :: digits)

/-- The texts of an exponent, which may be missing. -/
inductive ExponentText : Int → List Char → Prop
  | none : ExponentText 0 []
  | some {mark exponent text} (hmark : mark = 'e' ∨ mark = 'E') (htext : IntText exponent text) :
      ExponentText exponent (mark :: text)

/-- A decimal number by its parts: the digits before and behind the point, and the exponent. -/
structure Numeral where
  negative : Bool
  whole : List Char
  fraction : List Char
  exponent : Int
deriving DecidableEq

namespace Numeral

/-- All digits, read as one number. -/
def digits (n : Numeral) : Nat :=
  Nat.ofDigitChars 10 (n.whole ++ n.fraction) 0

/-- The exact number. -/
def value (n : Numeral) : ℚ :=
  Binary64.sign n.negative * (n.digits * 10 ^ (n.exponent - n.fraction.length))

/-- The nearest binary64 number. -/
def nearest (n : Numeral) : Binary64 :=
  .ofDecimal n.negative n.digits (n.exponent - n.fraction.length)

/-- The texts of a numeral behind its sign. There is a digit on at least one side of the point. -/
inductive IsUnsigned (n : Numeral) : List Char → Prop
  | intro {fraction exponent} (hdigits : IsDigits (n.whole ++ n.fraction))
      (hne : n.whole ++ n.fraction ≠ []) (hfraction : FractionText n.fraction fraction)
      (hexponent : ExponentText n.exponent exponent) :
      n.IsUnsigned (n.whole ++ (fraction ++ exponent))

/-- The texts of a numeral. -/
inductive IsText (n : Numeral) : List Char → Prop
  | intro {sign text} (hsign : SignText n.negative sign) (htext : n.IsUnsigned text) :
      n.IsText (sign ++ text)

end Numeral

/-! ## Signs -/

/-- The sign in front of a text, and the text behind it. -/
def splitSign : List Char → Bool × List Char
  | '-' :: cs => (true, cs)
  | '+' :: cs => (false, cs)
  | cs => (false, cs)

/-- Without a sign nothing is split off. -/
theorem splitSign_of_ne {cs : List Char} (hminus : ∀ rest, cs ≠ '-' :: rest)
    (hplus : ∀ rest, cs ≠ '+' :: rest) : splitSign cs = (false, cs) := by
  unfold splitSign
  split
  · exact absurd rfl (hminus _)
  · exact absurd rfl (hplus _)
  · rfl

/-- What is split off is a sign. -/
theorem signText_splitSign (cs : List Char) :
    ∃ sign, SignText (splitSign cs).1 sign ∧ cs = sign ++ (splitSign cs).2 := by
  unfold splitSign
  split
  · exact ⟨_, .minus, rfl⟩
  · exact ⟨_, .plus, rfl⟩
  · exact ⟨_, .none, rfl⟩

/-- A sign is split off a text that does not begin with one itself. -/
theorem splitSign_append {negative : Bool} {sign rest : List Char} (hsign : SignText negative sign)
    (hrest : ∀ c ∈ rest.head?, c ≠ '-' ∧ c ≠ '+') :
    splitSign (sign ++ rest) = (negative, rest) := by
  cases hsign with
  | plus => rfl
  | minus => rfl
  | none =>
    rw [List.nil_append]
    refine splitSign_of_ne ?_ ?_
    · rintro cs rfl
      exact (hrest '-' rfl).1 rfl
    · rintro cs rfl
      exact (hrest '+' rfl).2 rfl

/-- An integer is read from the digits behind its sign. -/
theorem readInt?_eq_splitSign (cs : List Char) :
    readInt? cs = (readDigitRow? (splitSign cs).2).map
      fun n : Nat => Binary64.sign (splitSign cs).1 * n := by
  have hplain : ∀ o : Option Nat, (do let n ← o; pure (n : Int)) = o.map Nat.cast := by
    intro o
    cases o <;> rfl
  unfold readInt?
  simp only [hplain, Option.map_map]
  split
  · simp [splitSign, Binary64.sign, Function.comp_def]
  · simp [splitSign, Binary64.sign, Function.comp_def]
  · next hminus hplus =>
    rw [splitSign_of_ne hminus hplus]
    simp [Binary64.sign, Function.comp_def]

/-- A binary64 number is read from the text behind its sign. -/
theorem readBinary64?_eq_splitSign (cs : List Char) :
    readBinary64? cs = readMagnitude? (splitSign cs).1 (splitSign cs).2 := by
  unfold readBinary64?
  split
  · rfl
  · rfl
  · next hminus hplus => rw [splitSign_of_ne hminus hplus]

/-- A digit is no sign. -/
theorem ne_sign_of_isDigit {c : Char} (h : c.isDigit = true) : c ≠ '-' ∧ c ≠ '+' := by
  constructor <;> rintro rfl <;> exact absurd h (by decide)

/-! ## Integers -/

/-- A row of digits is read if there is one. -/
theorem readDigitRow?_eq_some_iff {cs : List Char} {n : Nat} :
    readDigitRow? cs = some n ↔ IsDigits cs ∧ cs ≠ [] ∧ Nat.ofDigitChars 10 cs 0 = n := by
  unfold readDigitRow? IsDigits
  rw [Option.ite_none_right_eq_some, List.all_eq_true, Option.some.injEq]
  tauto

/-- Integers are read from their texts and from nothing else. -/
theorem readInt?_eq_some_iff {cs : List Char} {z : Int} : readInt? cs = some z ↔ IntText z cs := by
  rw [readInt?_eq_splitSign]
  constructor
  · intro h
    obtain ⟨n, hn, rfl⟩ := Option.map_eq_some_iff.1 h
    obtain ⟨hdigits, hne, rfl⟩ := readDigitRow?_eq_some_iff.1 hn
    obtain ⟨sign, hsign, hcs⟩ := signText_splitSign cs
    have := IntText.intro hsign hdigits hne
    rwa [← hcs] at this
  · rintro ⟨hsign, hdigits, hne⟩
    next negative sign digits =>
    have hrest : ∀ c ∈ digits.head?, c ≠ '-' ∧ c ≠ '+' := fun c hc =>
      ne_sign_of_isDigit (hdigits c (List.mem_of_mem_head? hc))
    rw [splitSign_append hsign hrest, readDigitRow?_eq_some_iff.2 ⟨hdigits, hne, rfl⟩]
    rfl

/-- A 64-bit integer is what its value is turned into, and nothing else is. -/
theorem toInt64?_eq_some_iff {n : Int} {k : Int64} : toInt64? n = some k ↔ n = k.toInt := by
  unfold toInt64?
  constructor
  · intro h
    split at h
    · next hrange =>
      cases h
      exact (Int64.toInt_ofInt_of_le hrange.1 hrange.2).symm
    · cases h
  · rintro rfl
    rw [if_pos ⟨k.le_toInt, k.toInt_lt⟩, Int64.ofInt_toInt]

/-! ## Decimal numbers -/

/-- The digits at the beginning of a text whose rest begins with something else. -/
theorem span_isDigit {digits rest : List Char} (hdigits : IsDigits digits)
    (hrest : ∀ c ∈ rest.head?, c.isDigit = false) :
    (digits ++ rest).takeWhile Char.isDigit = digits ∧
      (digits ++ rest).dropWhile Char.isDigit = rest := by
  have htake : rest.takeWhile Char.isDigit = [] := by
    cases rest with
    | nil => rfl
    | cons c cs => rw [List.takeWhile_cons, hrest c rfl]; rfl
  have hdrop : rest.dropWhile Char.isDigit = rest := by
    cases rest with
    | nil => rfl
    | cons c cs => rw [List.dropWhile_cons, hrest c rfl]; rfl
  rw [List.takeWhile_append_of_pos hdigits, List.dropWhile_append_of_pos hdigits, htake, hdrop,
    List.append_nil]
  exact ⟨rfl, rfl⟩

/-- What is taken while there are digits is digits. -/
theorem isDigits_takeWhile (cs : List Char) : IsDigits (cs.takeWhile Char.isDigit) :=
  List.all_eq_true.1 (List.all_takeWhile)

/-- Takes the fraction off a text, if there is one. -/
def splitFraction : List Char → List Char × List Char
  | '.' :: cs => (cs.takeWhile Char.isDigit, cs.dropWhile Char.isDigit)
  | cs => ([], cs)

/-- Without a point there is no fraction. -/
theorem splitFraction_of_ne {cs : List Char} (h : ∀ rest, cs ≠ '.' :: rest) :
    splitFraction cs = ([], cs) := by
  unfold splitFraction
  split
  · exact absurd rfl (h _)
  · rfl

/-- Reads the exponent that is all of a text, if it is not missing. -/
def readExponentText? : List Char → Option Int
  | [] => some 0
  | c :: cs => if c = 'e' ∨ c = 'E' then readInt? cs else none

/-- Takes the text of a numeral behind its sign apart. -/
def readUnsignedNumeral? (negative : Bool) (cs : List Char) : Option Numeral :=
  let whole := cs.takeWhile Char.isDigit
  let (fraction, rest) := splitFraction (cs.dropWhile Char.isDigit)
  if whole ++ fraction = [] then none
  else (readExponentText? rest).map fun exponent => ⟨negative, whole, fraction, exponent⟩

/-- Takes the text of a numeral apart. -/
def readNumeral? (cs : List Char) : Option Numeral :=
  readUnsignedNumeral? (splitSign cs).1 (splitSign cs).2

/-- A decimal number is read by taking its text apart and rounding once. -/
theorem readUnsigned?_eq_map (negative : Bool) (cs : List Char) :
    readUnsigned? negative cs = (readUnsignedNumeral? negative cs).map Numeral.nearest := by
  -- Whatever the fraction, the exponent is read from what is left behind it.
  have hparts : ∀ (whole fraction rest : List Char),
      (if whole ++ fraction = [] then none
      else
        let value (exponent : Int) : Binary64 :=
          .ofDecimal negative (Nat.ofDigitChars 10 (whole ++ fraction) 0)
            (exponent - fraction.length)
        match rest with
        | [] => some (value 0)
        | c :: cs => if c = 'e' ∨ c = 'E' then (readExponent? cs).map value else none) =
      (if whole ++ fraction = [] then none
      else (readExponentText? rest).map
        fun exponent => (⟨negative, whole, fraction, exponent⟩ : Numeral)).map
          Numeral.nearest := by
    intro whole fraction rest
    split
    · rfl
    · unfold readExponentText?
      cases rest with
      | nil => rfl
      | cons c cs =>
        dsimp only
        split
        · rw [Option.map_map]
          rfl
        · rfl
  unfold readUnsigned? readUnsignedNumeral?
  dsimp only
  split
  · next cs' h =>
    rw [h]
    exact hparts ..
  · next h =>
    rw [splitFraction_of_ne h]
    exact hparts ..

/-- Exponents are read from their texts and from nothing else. -/
theorem readExponentText?_eq_some_iff {cs : List Char} {z : Int} :
    readExponentText? cs = some z ↔ ExponentText z cs := by
  constructor
  · intro h
    unfold readExponentText? at h
    split at h
    · cases h
      exact .none
    · split at h
      · next hmark => exact .some hmark (readInt?_eq_some_iff.1 h)
      · cases h
  · intro h
    cases h with
    | none => rfl
    | some hmark htext =>
      unfold readExponentText?
      dsimp only
      rw [if_pos hmark]
      exact readInt?_eq_some_iff.2 htext

/-- The text of an exponent begins with neither a digit nor a point. -/
theorem ExponentText.head {z : Int} {cs : List Char} (h : ExponentText z cs) :
    ∀ c ∈ cs.head?, c.isDigit = false ∧ c ≠ '.' := by
  intro c hc
  cases h with
  | none => cases hc
  | some hmark _ =>
    cases hc
    rcases hmark with rfl | rfl <;> exact ⟨rfl, by decide⟩

/-- A fraction that is not followed by a digit does not begin with one. -/
theorem FractionText.head_append {digits fraction rest : List Char}
    (h : FractionText digits fraction) (hrest : ∀ c ∈ rest.head?, c.isDigit = false) :
    ∀ c ∈ (fraction ++ rest).head?, c.isDigit = false := by
  intro c hc
  cases h with
  | none => exact hrest c hc
  | some =>
    cases hc
    rfl

/-- What is taken off is a fraction. -/
theorem fractionText_splitFraction (cs : List Char) :
    IsDigits (splitFraction cs).1 ∧
      ∃ text, FractionText (splitFraction cs).1 text ∧ cs = text ++ (splitFraction cs).2 := by
  unfold splitFraction
  split
  · next rest =>
    refine ⟨isDigits_takeWhile rest, _, .some _, ?_⟩
    rw [List.cons_append, List.takeWhile_append_dropWhile]
  · exact ⟨fun c hc => absurd hc List.not_mem_nil, _, .none, rfl⟩

/-- A fraction is taken off the text of an exponent. -/
theorem splitFraction_append {digits fraction rest : List Char} (hdigits : IsDigits digits)
    (hfraction : FractionText digits fraction)
    (hrest : ∀ c ∈ rest.head?, c.isDigit = false ∧ c ≠ '.') :
    splitFraction (fraction ++ rest) = (digits, rest) := by
  cases hfraction with
  | none =>
    refine splitFraction_of_ne fun cs h => ?_
    rw [List.nil_append] at h
    rw [h] at hrest
    exact (hrest '.' rfl).2 rfl
  | some =>
    obtain ⟨htake, hdrop⟩ := span_isDigit hdigits fun c hc => (hrest c hc).1
    exact Prod.ext htake hdrop

/-- The texts behind a sign are taken apart, and nothing else is. -/
theorem readUnsignedNumeral?_eq_some_iff {negative : Bool} {cs : List Char} {n : Numeral} :
    readUnsignedNumeral? negative cs = some n ↔ n.negative = negative ∧ n.IsUnsigned cs := by
  unfold readUnsignedNumeral?
  dsimp only
  constructor
  · intro h
    split at h
    · cases h
    · next hne =>
      obtain ⟨exponent, hexponent, rfl⟩ := Option.map_eq_some_iff.1 h
      obtain ⟨hdigits, fraction, hfraction, hrest⟩ :=
        fractionText_splitFraction (cs.dropWhile Char.isDigit)
      have hall : IsDigits (cs.takeWhile Char.isDigit ++
          (splitFraction (cs.dropWhile Char.isDigit)).1) := by
        intro c hc
        exact (List.mem_append.1 hc).elim (isDigits_takeWhile cs c) (hdigits c)
      have htext : cs = cs.takeWhile Char.isDigit ++
          (fraction ++ (splitFraction (cs.dropWhile Char.isDigit)).2) := by
        rw [← hrest, List.takeWhile_append_dropWhile]
      have hunsigned := Numeral.IsUnsigned.intro (n := ⟨negative, _, _, exponent⟩) hall hne
        hfraction (readExponentText?_eq_some_iff.1 hexponent)
      rw [← htext] at hunsigned
      exact ⟨rfl, hunsigned⟩
  · rintro ⟨rfl, hdigits, hne, hfraction, hexponent⟩
    next fraction exponent =>
    obtain ⟨htake, hdrop⟩ := span_isDigit (fun c hc => hdigits c (List.mem_append_left _ hc))
      (hfraction.head_append fun c hc => (hexponent.head c hc).1)
    rw [htake, hdrop, splitFraction_append (fun c hc => hdigits c (List.mem_append_right _ hc))
      hfraction hexponent.head, if_neg hne, readExponentText?_eq_some_iff.2 hexponent]
    rfl

/-- A numeral does not begin with a sign behind its sign. -/
theorem Numeral.IsUnsigned.head {n : Numeral} {cs : List Char} (h : n.IsUnsigned cs) :
    ∀ c ∈ cs.head?, c ≠ '-' ∧ c ≠ '+' := by
  obtain ⟨hdigits, hne, hfraction, hexponent⟩ := h
  intro c hc
  cases hwhole : n.whole with
  | cons first rest =>
    -- The first character is a digit.
    rw [hwhole] at hc hdigits
    cases hc
    exact ne_sign_of_isDigit (hdigits c List.mem_cons_self)
  | nil =>
    -- There has to be a digit behind the point, so that the point is there.
    rw [hwhole] at hc hne
    generalize n.fraction = digits at hfraction hne
    cases hfraction with
    | none => exact absurd rfl hne
    | some =>
      cases hc
      decide

/-- Numerals are taken apart, and nothing else is. -/
theorem readNumeral?_eq_some_iff {cs : List Char} {n : Numeral} :
    readNumeral? cs = some n ↔ n.IsText cs := by
  unfold readNumeral?
  rw [readUnsignedNumeral?_eq_some_iff]
  constructor
  · rintro ⟨hnegative, htext⟩
    obtain ⟨sign, hsign, hcs⟩ := signText_splitSign cs
    rw [← hnegative] at hsign
    have := Numeral.IsText.intro hsign htext
    rwa [← hcs] at this
  · rintro ⟨hsign, htext⟩
    rw [splitSign_append hsign htext.head]
    exact ⟨rfl, htext⟩

/-- A text is that of one numeral at most. -/
theorem Numeral.IsText.unique {n m : Numeral} {cs : List Char} (hn : n.IsText cs)
    (hm : m.IsText cs) : n = m :=
  Option.some.inj ((readNumeral?_eq_some_iff.2 hn).symm.trans (readNumeral?_eq_some_iff.2 hm))

/-- What is read as a finite binary64 number is the text of a numeral, rounded. -/
theorem exists_numeral_of_readBinary64? {cs : List Char} {s : Bool} {m : Magnitude}
    (h : readBinary64? cs = some (.finite s m)) :
    ∃ n : Numeral, n.IsText cs ∧ n.nearest = .finite s m := by
  rw [readBinary64?_eq_splitSign] at h
  unfold readMagnitude? at h
  dsimp only at h
  -- The words for infinity and for what is no number give nothing finite.
  split at h
  · cases h
  · split at h
    · cases h
    · rw [readUnsigned?_eq_map] at h
      obtain ⟨n, hn, hnearest⟩ := Option.map_eq_some_iff.1 h
      exact ⟨n, readNumeral?_eq_some_iff.1 hn, hnearest⟩

/-! ## Values -/

/-- A numeral is rounded to a number that is at most half a unit in the last place away. -/
theorem Numeral.error_nearest {n : Numeral} {s : Bool} {m : Magnitude}
    (h : n.nearest = .finite s m) :
    |n.value - Binary64.sign s * m.value| ≤ 2 ^ m.exponent / 2 := by
  obtain ⟨rfl, herror⟩ := Binary64.error_ofDecimal h
  unfold value
  rwa [← mul_sub, abs_mul, Binary64.abs_sign, one_mul]

/-- Zeros behind a number multiply it by a power of ten. -/
theorem ofDigitChars_append_zeros {zeros : List Char} (h : ∀ c ∈ zeros, c = '0')
    (digits : List Char) :
    Nat.ofDigitChars 10 (digits ++ zeros) 0 = Nat.ofDigitChars 10 digits 0 * 10 ^ zeros.length := by
  rw [Nat.ofDigitChars_append, List.eq_replicate_of_mem h, Nat.ofDigitChars_replicate_zero,
    List.length_replicate, Nat.mul_comm]

/-- The text of an integer, with a fraction of zeros or without one, is that of a numeral with the
integer as its value. -/
theorem IntText.exists_numeral {z : Int} {whole zeros fraction : List Char} (h : IntText z whole)
    (hfraction : FractionText zeros fraction) (hzeros : ∀ c ∈ zeros, c = '0') :
    ∃ n : Numeral, n.IsText (whole ++ fraction) ∧ n.value = z := by
  obtain ⟨hsign, hdigits, hne⟩ := h
  next negative sign digits =>
  have hall : IsDigits (digits ++ zeros) := by
    intro c hc
    rcases List.mem_append.1 hc with hc | hc
    · exact hdigits c hc
    · rw [hzeros c hc]
      rfl
  have hunsigned := Numeral.IsUnsigned.intro (n := ⟨negative, digits, zeros, 0⟩) hall
    (List.append_ne_nil_of_left_ne_nil hne _) hfraction .none
  rw [List.append_nil] at hunsigned
  refine ⟨⟨negative, digits, zeros, 0⟩, ?_, ?_⟩
  · rw [List.append_assoc]
    exact .intro hsign hunsigned
  · unfold Numeral.value Numeral.digits
    rw [ofDigitChars_append_zeros hzeros, zero_sub, zpow_neg, zpow_natCast]
    push_cast
    field_simp

end ChangeFeed.Text
