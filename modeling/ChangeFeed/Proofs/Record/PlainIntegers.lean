import ChangeFeed.Proofs.Record.Coercion
import ChangeFeed.Proofs.Text.Segment
import ChangeFeed.Record.Image

/-!
# Plain integers

An integer may be written as a whole number, or as a text: its digits, with a sign, zeros in front,
a fraction of zeros and blanks around them (`Json.IsPlain`). All of these are taken as the integer,
if it is a 64-bit one, and refused otherwise (`Coercion.integer_of_plain`).

That nothing else comes out follows from what a text denotes (`Coercion.denotes_of_integerOfText?`):
the plain text of an integer denotes that integer and no fraction, so that rounding cannot turn it
into another one. That a 64-bit integer does come out is seen by reading the digits.
-/

namespace ChangeFeed

open Text

/-- The plain texts of an integer without a fraction: a sign, which a natural number may do without,
any number of zeros, and the digits. -/
inductive Text.IsPlainWhole (n : Int) : List Char → Prop
  | intro {sign} (hsign : SignText (decide (n < 0)) sign) (zeros : Nat) :
      IsPlainWhole n (sign ++ (List.replicate zeros '0' ++ natDigits n.natAbs))

/-- The plain forms of an integer: a whole number, or a text with blanks around it and, maybe, a
point with at least one zero behind it. -/
inductive Json.IsPlain (n : Int) : Json → Prop
  | number {range} : IsPlain n (.number (.whole n range))
  | whole {before whole after} (hbefore : IsBlanks before) (hafter : IsBlanks after)
      (hwhole : IsPlainWhole n whole) :
      IsPlain n (.string (.ofList (before ++ (whole ++ after))))
  | fraction {before whole after} (hbefore : IsBlanks before) (hafter : IsBlanks after)
      (hwhole : IsPlainWhole n whole) (zeros : Nat) :
      IsPlain n (.string (.ofList
        (before ++ ((whole ++ '.' :: List.replicate (zeros + 1) '0') ++ after))))

namespace Text

/-! ## Plain texts -/

variable {n : Int} {whole : List Char}

/-- A plain text is one of the integer. -/
theorem IsPlainWhole.intText (h : IsPlainWhole n whole) : IntText n whole := by
  obtain ⟨hsign, zeros⟩ := h
  have hdigits : IsDigits (List.replicate zeros '0' ++ natDigits n.natAbs) := by
    intro c hc
    rcases List.mem_append.1 hc with hc | hc
    · rw [List.eq_of_mem_replicate hc]
      rfl
    · exact Nat.isDigit_of_mem_toDigits (by decide) (by decide) hc
  have hne : List.replicate zeros '0' ++ natDigits n.natAbs ≠ [] :=
    List.append_ne_nil_of_right_ne_nil _ Nat.toDigits_ne_nil
  have hvalue : Binary64.sign (decide (n < 0)) *
      Nat.ofDigitChars 10 (List.replicate zeros '0' ++ natDigits n.natAbs) 0 = n := by
    unfold natDigits Binary64.sign
    rw [Nat.ofDigitChars_append, Nat.ofDigitChars_replicate_zero, Nat.mul_zero,
      Nat.ofDigitChars_ten_toDigits]
    simp only [decide_eq_true_eq]
    split <;> omega
  have := IntText.intro hsign hdigits hne
  rwa [hvalue] at this

/-- There is neither a blank nor a point in the text of an integer. -/
theorem IntText.isBlank_eq_false (h : IntText n whole) :
    ∀ c ∈ whole, isBlank c = false ∧ c ≠ '.' := by
  obtain ⟨hsign, hdigits, -⟩ := h
  intro c hc
  rcases List.mem_append.1 hc with hc | hc
  · cases hsign with
    | none => cases hc
    | plus =>
      rw [List.mem_singleton.1 hc]
      decide
    | minus =>
      rw [List.mem_singleton.1 hc]
      decide
  · refine ⟨isBlank_of_isDigit (hdigits c hc), ?_⟩
    rintro rfl
    exact absurd (hdigits '.' hc) (by decide)

end Text

namespace Coercion

variable {n : Int} {whole zeros fraction : List Char}

/-- The text of an integer, with a fraction of zeros or without one, is taken as no other
integer. -/
theorem toInt64?_of_integerOfText? (hwhole : IntText n whole)
    (hfraction : FractionText zeros fraction) (hzeros : ∀ c ∈ zeros, c = '0') {k : Int64}
    (h : integerOfText? (whole ++ fraction) = some k) : toInt64? n = some k := by
  obtain ⟨numeral, htext, hvalue⟩ := hwhole.exists_numeral hfraction hzeros
  obtain ⟨other, htext', hdenotes⟩ := denotes_of_integerOfText? h
  rw [htext'.unique htext, hvalue] at hdenotes
  rcases hdenotes with heq | hblurs
  · exact toInt64?_eq_some_iff.2 (by exact_mod_cast heq)
  · exact absurd rfl (hblurs.fractional n)

/-- The text of an integer is taken as the integer, if it is in range. -/
theorem integerOfText?_whole (hwhole : IntText n whole) :
    integerOfText? whole = toInt64? n := by
  refine Option.ext fun k => ⟨fun h => ?_, fun h => ?_⟩
  · refine toInt64?_of_integerOfText? hwhole .none (List.forall_mem_nil _) ?_
    rwa [List.append_nil]
  · have hread : readInt64? whole = some k :=
      Option.bind_eq_some_iff.2 ⟨n, readInt?_eq_some_iff.2 hwhole, h⟩
    unfold integerOfText?
    rw [hread]
    rfl

/-- So it is with a fraction of zeros. -/
theorem integerOfText?_fraction (hwhole : IntText n whole) (hne : zeros ≠ [])
    (hzeros : ∀ c ∈ zeros, c = '0') : integerOfText? (whole ++ '.' :: zeros) = toInt64? n := by
  have hsound : ∀ {k}, integerOfText? (whole ++ '.' :: zeros) = some k → toInt64? n = some k :=
    toInt64?_of_integerOfText? hwhole (.some zeros) hzeros
  refine Option.ext fun k => ⟨hsound, fun h => ?_⟩
  have hread : readInt64? whole = some k :=
    Option.bind_eq_some_iff.2 ⟨n, readInt?_eq_some_iff.2 hwhole, h⟩
  have hsplit : splitFirst '.' (whole ++ '.' :: zeros) = some (whole, zeros) :=
    splitFirst_append (fun hmem => (hwhole.isBlank_eq_false '.' hmem).2 rfl) zeros
  have hzero : zeroFraction? (whole ++ '.' :: zeros) = some k := by
    unfold zeroFraction?
    rw [hsplit, Option.bind_some]
    dsimp only
    rw [if_pos ⟨hne, by simpa using hzeros⟩]
    exact hread
  -- Were the text an integer without its fraction, it would be the same one.
  cases hfirst : integerOfText? (whole ++ '.' :: zeros) with
  | some k' => rw [← h, hsound hfirst]
  | none =>
    unfold integerOfText? at hfirst
    rw [Option.or_eq_none_iff, hzero] at hfirst
    cases hfirst.2

/-- A plain form of an integer is taken as the integer, if it is in range, and as no other. -/
theorem integer?_of_plain {v : Json} (h : v.IsPlain n) : integer? v = toInt64? n := by
  cases h with
  | number => rfl
  | whole hbefore hafter hwhole =>
    have htext := hwhole.intText
    have htrimmed := isTrimmed_of_forall fun c hc => (htext.isBlank_eq_false c hc).1
    unfold integer?
    dsimp only
    rw [String.toList_ofList, trim_append hbefore htrimmed hafter, integerOfText?_whole htext]
  | @fraction _ whole _ hbefore hafter hwhole zeros =>
    have htext := hwhole.intText
    have htrimmed : IsTrimmed (whole ++ '.' :: List.replicate (zeros + 1) '0') := by
      refine isTrimmed_of_forall fun c hc => ?_
      rcases List.mem_append.1 hc with hc | hc
      · exact (htext.isBlank_eq_false c hc).1
      rcases List.mem_cons.1 hc with rfl | hc
      · decide
      · rw [List.eq_of_mem_replicate hc]
        decide
    unfold integer?
    dsimp only
    rw [String.toList_ofList, trim_append hbefore htrimmed hafter,
      integerOfText?_fraction htext (by simp) fun c => List.eq_of_mem_replicate]

/-- Whatever plain form an integer has, it is taken as that integer if it is a 64-bit one, and
otherwise refused with an error that names the field and shows the value. -/
theorem integer_of_plain {v : Json} (h : v.IsPlain n) (field : String) :
    (-2 ^ 63 ≤ n ∧ n < 2 ^ 63 →
      ∃ k : Int64, k.toInt = n ∧ Image.coerce integer field v = .ok k) ∧
    (n < -2 ^ 63 ∨ 2 ^ 63 ≤ n →
      Image.coerce integer field v = .error (.invalidField field .integer v.canonicalText)) := by
  have hread := integer?_of_plain h
  unfold Image.coerce integer
  rw [hread]
  unfold toInt64?
  constructor
  · intro hrange
    rw [if_pos (by omega)]
    exact ⟨_, Int64.toInt_ofInt_of_le hrange.1 hrange.2, rfl⟩
  · intro hrange
    rw [if_neg (by omega)]
    rfl

/-- The largest key is taken from a text with all that may stand around its digits, and the first
integer below the least key is refused although it has a fraction. -/
theorem integer_of_plain_limits :
    let largest : Json := .string "\u00a0+0009223372036854775807.00\n"
    let below : Json := .string "-9223372036854775809.0"
    (largest.IsPlain 9223372036854775807 ∧ below.IsPlain (-9223372036854775809)) ∧
      Image.coerce integer "id" largest = .ok 9223372036854775807 ∧
      Image.coerce integer "id" below =
        .error (.invalidField "id" .integer "\"-9223372036854775809.0\"") := by
  intro largest below
  have hlargest : largest.IsPlain 9223372036854775807 := by
    have htext : "\u00a0+0009223372036854775807.00\n" = String.ofList (['\u00a0'] ++
        ((['+'] ++ (List.replicate 3 '0' ++ natDigits 9223372036854775807) ++
          '.' :: List.replicate 2 '0') ++ ['\n'])) := by
      decide +kernel
    show Json.IsPlain _ (.string _)
    rw [htext]
    have hsign : SignText (decide ((9223372036854775807 : Int) < 0)) ['+'] := .plus
    have hbefore : IsBlanks ['\u00a0'] := List.forall_mem_singleton.2 (by decide)
    have hafter : IsBlanks ['\n'] := List.forall_mem_singleton.2 (by decide)
    exact .fraction hbefore hafter (.intro hsign 3) 1
  have hbelow : below.IsPlain (-9223372036854775809) := by
    have htext : "-9223372036854775809.0" = String.ofList ([] ++
        ((['-'] ++ (List.replicate 0 '0' ++ natDigits 9223372036854775809) ++
          '.' :: List.replicate 1 '0') ++ [])) := by
      decide +kernel
    show Json.IsPlain _ (.string _)
    rw [htext]
    have hsign : SignText (decide ((-9223372036854775809 : Int) < 0)) ['-'] := .minus
    exact .fraction isBlanks_nil isBlanks_nil (.intro hsign 0) 0
  obtain ⟨k, hk, htaken⟩ := (integer_of_plain hlargest "id").1 (by decide)
  obtain rfl : k = 9223372036854775807 := Int64.toInt_inj.1 hk
  have hshown : below.canonicalText = "\"-9223372036854775809.0\"" := by
    decide +kernel +zetaReduce
  exact ⟨⟨hlargest, hbelow⟩, htaken, hshown ▸ (integer_of_plain hbelow "id").2 (by decide)⟩

end Coercion

end ChangeFeed
