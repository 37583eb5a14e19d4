import ChangeFeed.Proofs.Text.Numeral
import ChangeFeed.Record.Coercion
import Mathlib.Data.Nat.Cast.Field

/-!
# What an integer stands for

A value that is taken as an integer denotes a number: a whole number or a float denotes itself, and
a text the number that its numeral writes, worked out exactly (`Json.Denotes`). A value that denotes
a whole number becomes that integer or is refused, however many digits it is written with.

A text with a point or an exponent is rounded before it is looked at, unless it is plain digits with
a fraction of zeros. Where it denotes a fraction that is closer to an integer than floats can tell,
it becomes that integer and is not refused (`Coercion.Blurs`): from `2 ^ 52` on this happens to
halves (`integer_half`), and to any key with fractions that are small enough. `denotes_of_integer`
states that nothing else can happen.
-/

namespace ChangeFeed

open Text

/-- The number that a JSON value denotes. -/
inductive Json.Denotes : Json → ℚ → Prop
  | whole {n range} : Denotes (.number (.whole n range)) n
  | float {x q} (h : x.value? = some q) : Denotes (.number (.float x)) q
  | string {s n} (h : Numeral.IsText n (trim s.toList)) : Denotes (.string s) n.value

/-- A value denotes one number at most. -/
theorem Json.Denotes.unique {v : Json} {p q : ℚ} (hp : v.Denotes p) (hq : v.Denotes q) :
    p = q := by
  cases hp with
  | whole =>
    cases hq
    rfl
  | float hp =>
    cases hq with
    | float hq => exact Option.some.inj (hp.symm.trans hq)
  | string hp =>
    cases hq with
    | string hq => rw [hp.unique hq]

/-- A number that is not whole, and an integer so close to it that floats cannot tell them apart. -/
structure Coercion.Blurs (q : ℚ) (k : Int) : Prop where
  fractional : ∀ z : Int, q ≠ z
  near : |q - k| ≤ 1 / 2
  close : |q - k| ≤ |(k : ℚ)| / 2 ^ 53 + 2 ^ (-1075 : Int)
  lt_exactBound : |k| < 2 ^ 53

namespace Coercion

/-- The word of an integer in range has its value. -/
theorem toInt_of_toInt64? {n : Int} {k : Int64} (h : toInt64? n = some k) : k.toInt = n :=
  (toInt64?_eq_some_iff.1 h).symm

/-- The text of a 64-bit integer is that of an integer with its value. -/
theorem intText_of_readInt64? {cs : List Char} {k : Int64} (h : readInt64? cs = some k) :
    IntText k.toInt cs := by
  obtain ⟨z, hread, hz⟩ := Option.bind_eq_some_iff.1 h
  rw [toInt_of_toInt64? hz]
  exact readInt?_eq_some_iff.1 hread

/-- A float that is taken as an integer is that integer, below the bound. -/
theorem exactInteger?_eq_some {x : Binary64} {k : Int64} (h : exactInteger? x = some k) :
    ∃ s m, x = .finite s m ∧ Binary64.sign s * m.value = k.toInt ∧ |k.toInt| < 2 ^ 53 := by
  obtain ⟨z, hx, hz⟩ := Option.bind_eq_some_iff.1 h
  cases x with
  | infinite s => cases hx
  | nan => cases hx
  | finite s m =>
    refine ⟨s, m, rfl, ?_⟩
    unfold Binary64.toInt? at hx
    dsimp only at hx
    split at hx
    · next hdvd =>
      split at hz
      · next hbound =>
        have hwhole : ((m.num / m.den : Nat) : ℚ) = m.value := by
          rw [Nat.cast_div (Nat.dvd_of_mod_eq_zero hdvd) (by exact_mod_cast m.den_pos.ne'),
            m.num_div_den]
        cases hx
        rw [toInt_of_toInt64? hz]
        refine ⟨?_, ?_⟩
        · rw [← hwhole]
          push_cast
          rfl
        · rw [Int.abs_eq_natAbs]
          unfold exactBound at hbound
          omega
      · cases hz
    · cases hx

/-- A text that is rounded to a float, and taken as an integer, denotes that integer or a fraction
that floats cannot tell from it. -/
theorem denotes_of_rounded {cs : List Char} {x : Binary64} {k : Int64}
    (hread : readBinary64? cs = some x) (hexact : exactInteger? x = some k) :
    ∃ n : Numeral, n.IsText cs ∧ (n.value = k.toInt ∨ Blurs n.value k.toInt) := by
  obtain ⟨s, m, rfl, hvalue, hbound⟩ := exactInteger?_eq_some hexact
  obtain ⟨n, htext, hnearest⟩ := exists_numeral_of_readBinary64? hread
  have herror := Numeral.error_nearest hnearest
  have habs : m.value = |(k.toInt : ℚ)| := by
    rw [← hvalue, abs_mul, Binary64.abs_sign, one_mul, abs_of_nonneg m.value_nonneg]
  have hlt : |(k.toInt : ℚ)| < 2 ^ 53 := by exact_mod_cast hbound
  rw [hvalue] at herror
  have hnear : |n.value - k.toInt| ≤ 1 / 2 := by
    have := Magnitude.unit_le_one (habs ▸ hlt)
    linarith
  refine ⟨n, htext, ?_⟩
  by_cases hfractional : ∀ z : Int, n.value ≠ z
  · exact .inr ⟨hfractional, hnear, herror.trans (habs ▸ m.half_unit_le), hbound⟩
  · -- Whole numbers that are a half apart at most are the same.
    obtain ⟨z, hz⟩ := not_forall_not.1 hfractional
    rw [hz] at hnear
    have hone : (|z - k.toInt| : ℚ) < 1 := hnear.trans_lt (by norm_num)
    have hsame : z - k.toInt = 0 := Int.abs_lt_one_iff.1 (by exact_mod_cast hone)
    exact .inl (by rw [hz, Int.sub_eq_zero.1 hsame])

/-- A text that is taken as an integer denotes that integer, or a fraction that floats cannot tell
from it. -/
theorem denotes_of_integerOfText? {cs : List Char} {k : Int64} (h : integerOfText? cs = some k) :
    ∃ n : Numeral, n.IsText cs ∧ (n.value = k.toInt ∨ Blurs n.value k.toInt) := by
  rcases Option.or_eq_some_iff.1 h with hwhole | ⟨-, h⟩
  · -- Digits alone.
    obtain ⟨n, htext, hvalue⟩ := (intText_of_readInt64? hwhole).exists_numeral .none
      (List.forall_mem_nil _)
    rw [List.append_nil] at htext
    exact ⟨n, htext, .inl hvalue⟩
  rcases Option.or_eq_some_iff.1 h with hzeros | ⟨-, h⟩
  · -- Digits, a point and zeros.
    obtain ⟨⟨whole, fraction⟩, hsplit, hread⟩ := Option.bind_eq_some_iff.1 hzeros
    dsimp only at hread
    split at hread
    · next hfraction =>
      have hall : ∀ c ∈ fraction, c = '0' := by simpa using hfraction.2
      obtain ⟨n, htext, hvalue⟩ := (intText_of_readInt64? hread).exists_numeral (.some fraction)
        hall
      rw [eq_append_of_splitFirst hsplit]
      exact ⟨n, htext, .inl hvalue⟩
    · cases hread
  · -- Anything else is rounded first.
    split at h
    · cases h
    · obtain ⟨x, hread, hexact⟩ := Option.bind_eq_some_iff.1 h
      exact denotes_of_rounded hread hexact

/-- A value that is taken as an integer denotes that integer, or, for a text, a fraction that floats
cannot tell from it. -/
theorem exists_denotes_of_integer {v : Json} {k : Int64} (h : integer v = .ok k) :
    ∃ q, v.Denotes q ∧ (q = k.toInt ∨ (∃ s, v = .string s) ∧ Blurs q k.toInt) := by
  have hread : integer? v = some k := by
    unfold integer at h
    cases hv : integer? v with
    | none =>
      rw [hv] at h
      cases h
    | some k' =>
      rw [hv] at h
      cases h
      rfl
  unfold integer? at hread
  split at hread
  · exact ⟨_, .whole, .inl (by rw [toInt_of_toInt64? hread])⟩
  · obtain ⟨s, m, rfl, hvalue, -⟩ := exactInteger?_eq_some hread
    exact ⟨_, .float rfl, .inl hvalue⟩
  · next s =>
    obtain ⟨n, htext, hvalue⟩ := denotes_of_integerOfText? hread
    exact ⟨_, .string htext, hvalue.imp_right fun hblurs => ⟨⟨s, rfl⟩, hblurs⟩⟩
  · cases hread

/-- A value that denotes a whole number is taken as no other integer. -/
theorem eq_of_denotes_whole {v : Json} {k : Int64} {z : Int} (h : integer v = .ok k)
    (hz : v.Denotes z) : z = k.toInt := by
  obtain ⟨q, hq, hk⟩ := exists_denotes_of_integer h
  rcases hz.unique hq ▸ hk with heq | ⟨-, hblurs⟩
  · exact_mod_cast heq
  · exact absurd rfl (hblurs.fractional z)

/-- What a value that is taken as an integer denotes: one number, which is the integer itself, or,
for a text, a fraction that floats cannot tell from it. Whole numbers are given the same integer
only where they are the same. -/
theorem denotes_of_integer {v : Json} {k : Int64} (h : integer v = .ok k) :
    (∃ q, v.Denotes q ∧ (∀ other, v.Denotes other → other = q) ∧
      (q = k.toInt ∨ (∃ s, v = .string s) ∧ Blurs q k.toInt)) ∧
    ∀ w (y z : Int), integer w = .ok k → v.Denotes y → w.Denotes z → y = z := by
  obtain ⟨q, hq, hk⟩ := exists_denotes_of_integer h
  refine ⟨⟨q, hq, fun other hother => hother.unique hq, hk⟩, fun w y z hw hy hz => ?_⟩
  rw [eq_of_denotes_whole h hy, eq_of_denotes_whole hw hz]

/-- A key that floats do not reach is read from its digits. -/
theorem denotes_of_integer_digits :
    integer (.string "9007199254740993.0") = .ok 9007199254740993 ∧
      (Json.string "9007199254740993.0").Denotes 9007199254740993 := by
  have hread : integer (.string "9007199254740993.0") = .ok 9007199254740993 := by
    decide +kernel
  obtain ⟨⟨q, hq, -, rfl | ⟨-, hblurs⟩⟩, -⟩ := denotes_of_integer hread
  · exact ⟨hread, hq⟩
  · exact absurd hblurs.lt_exactBound (by decide)

/-- A text with a half is taken as the next even key, and so as the key that another text writes. -/
theorem integer_half :
    integer (.string "4503599627370497.5") = .ok 4503599627370498 ∧
      (Json.string "4503599627370497.5").Denotes (4503599627370497 + 1 / 2) ∧
      integer (.string "4503599627370498") = .ok 4503599627370498 ∧
      (Json.string "4503599627370498").Denotes 4503599627370498 := by
  -- The numerals that the two texts write.
  let half : Numeral := ⟨false, "4503599627370497".toList, ['5'], 0⟩
  let whole : Numeral := ⟨false, "4503599627370498".toList, [], 0⟩
  have hhalf : half.IsText (trim "4503599627370497.5".toList) :=
    readNumeral?_eq_some_iff.1 (by decide +kernel +zetaReduce)
  have hwhole : whole.IsText (trim "4503599627370498".toList) :=
    readNumeral?_eq_some_iff.1 (by decide +kernel +zetaReduce)
  have hhalfValue : half.value = 4503599627370497 + 1 / 2 := by
    have hdigits : half.digits = 45035996273704975 := by decide +kernel +zetaReduce
    unfold Numeral.value
    rw [hdigits]
    norm_num [half, Binary64.sign]
  have hwholeValue : whole.value = 4503599627370498 := by
    have hdigits : whole.digits = 4503599627370498 := by decide +kernel +zetaReduce
    unfold Numeral.value
    rw [hdigits]
    norm_num [whole, Binary64.sign]
  refine ⟨by decide +kernel, ?_, by decide +kernel, ?_⟩
  · rw [← hhalfValue]
    exact .string hhalf
  · rw [← hwholeValue]
    exact .string hwhole

end Coercion

end ChangeFeed
