import ChangeFeed.Json.Writer
import ChangeFeed.Proofs.Json.Canonical
import ChangeFeed.Proofs.Text.Numeral

/-!
# Reading what was written

The compact text of a value without floats is a text of that value by the grammar
(`Json.IsFloatFree.isReadable`), whatever comes behind it, as long as a number ends there
(`Json.EndsValue`). A string comes back since each of its characters does: an escape is read as the
character that it stands for (`Json.escape_cases`), and the bytes of any other character are neither
a quote nor a backslash nor a control character (`Json.isVerbatim_of_mem_utf8EncodeChar`). A whole
number comes back since its digits fit into the significand (`Json.readNumber_natDigits`).

So the reader reads the text as the value, if that is not nested too deep (`Json.parse_text`).
-/

namespace ChangeFeed.Json

open Text

/-! ## ASCII -/

section

variable {c d : Char} {cs : List Char}

/-- The byte of an ASCII character is its code. -/
theorem toNat_byte (h : c.toNat < 0x80) : (byte c).toNat = c.toNat := by
  have hmod : (byte c).toNat = c.toNat % 256 := UInt8.toNat_ofNat'
  omega

/-- Different ASCII characters have different bytes. -/
theorem byte_ne_byte (hc : c.toNat < 0x80) (hd : d.toNat < 0x80) (h : c ≠ d) :
    byte c ≠ byte d := by
  intro heq
  have hnat : c.toNat = d.toNat := by rw [← toNat_byte hc, ← toNat_byte hd, heq]
  exact h (Char.toNat_inj.1 hnat)

/-- Digits are ASCII characters. -/
theorem lt_of_isDigit (h : c.isDigit = true) : c.toNat < 0x80 :=
  Nat.lt_of_le_of_lt (Char.isDigit_iff_toNat.1 h).2 (by decide)

/-- An ASCII character in front is a byte in front. -/
theorem toUtf8_cons_of_lt (h : c.toNat < 0x80) : toUtf8 (c :: cs) = byte c :: toUtf8 cs := by
  rw [toUtf8_cons, utf8EncodeChar_of_lt h]
  rfl

/-- ASCII text has a byte for each character. -/
theorem toUtf8_eq_map (h : ∀ c ∈ cs, c.toNat < 0x80) : toUtf8 cs = cs.map byte := by
  induction cs with
  | nil => rfl
  | cons c cs ih =>
    obtain ⟨hc, hcs⟩ := List.forall_mem_cons.1 h
    rw [toUtf8_cons_of_lt hc, ih hcs, List.map_cons]

end

/-! ## Numbers -/

section

variable {n significand : Nat} {rest : List UInt8}

/-- What may stand behind a value: nothing, a comma or a closing bracket. -/
def EndsValue (rest : List UInt8) : Prop :=
  ∀ b ∈ rest.head?, b = byte ',' ∨ b = byte ']' ∨ b = byte '\x7d'

/-- No digit may stand behind a value. -/
theorem EndsValue.not_isDigit (h : EndsValue rest) : ∀ b ∈ rest.head?, isDigit b = false := by
  intro b hb
  rcases h b hb with rfl | rfl | rfl <;> rfl

/-- A digit is read as a digit of the same value. -/
theorem isDigit_byte {c : Char} (h : c.isDigit = true) :
    isDigit (byte c) = true ∧ digitOf (byte c) = c.toNat - '0'.toNat := by
  obtain ⟨hlow, hhigh⟩ : 48 ≤ c.toNat ∧ c.toNat ≤ 57 := Char.isDigit_iff_toNat.1 h
  have hbyte : (byte c).toNat = c.toNat := toNat_byte (lt_of_isDigit h)
  have hzero : (byte '0').toNat = 48 := rfl
  have hnine : (byte '9').toNat = 57 := rfl
  constructor
  · simp only [isDigit, Bool.and_eq_true, decide_eq_true_eq, UInt8.le_iff_toNat_le]
    omega
  · rw [digitOf, hbyte]

/-- A number does not get smaller by the digits that are appended to it. -/
theorem le_ofDigitChars (digits : List Char) (n : Nat) : n ≤ Nat.ofDigitChars 10 digits n := by
  have hpos : 0 < 10 ^ digits.length := Nat.pow_pos (by decide)
  calc n ≤ 10 ^ digits.length * n := Nat.le_mul_of_pos_left n hpos
    _ ≤ 10 ^ digits.length * n + Nat.ofDigitChars 10 digits 0 := Nat.le_add_right _ _
    _ = Nat.ofDigitChars 10 digits n := Nat.ofDigitChars_eq_ofDigitChars_zero.symm

/-- Digits that fit are all taken. -/
theorem takeDigits_append {digits : List Char} (hdigits : IsDigits digits)
    (hfits : Nat.ofDigitChars 10 digits significand ≤ maxSignificand)
    (hrest : ∀ b ∈ rest.head?, isDigit b = false) :
    takeDigits significand (digits.map byte ++ rest) =
      (Nat.ofDigitChars 10 digits significand, digits.length, rest) := by
  induction digits generalizing significand with
  | nil =>
    cases rest with
    | nil => rfl
    | cons b rest =>
      show takeDigits significand (b :: rest) = _
      rw [takeDigits, hrest b rfl]
      rfl
  | cons c digits ih =>
    obtain ⟨hc, hdigits⟩ := List.forall_mem_cons.1 hdigits
    obtain ⟨hdigit, hvalue⟩ := isDigit_byte hc
    rw [Nat.ofDigitChars_cons] at hfits
    have hnext : significand * 10 + digitOf (byte c) =
        10 * significand + (c.toNat - '0'.toNat) := by
      rw [hvalue, Nat.mul_comm]
    have hle : significand * 10 + digitOf (byte c) ≤ maxSignificand :=
      hnext ▸ Nat.le_trans (le_ofDigitChars digits _) hfits
    rw [List.map_cons, List.cons_append, takeDigits, hdigit, decide_eq_true hle,
      if_pos (Bool.and_self true), hnext, ih hdigits hfits, Nat.ofDigitChars_cons,
      List.length_cons]

/-- No zero stands in front of a positive number. -/
theorem head_natDigits (h : 0 < n) : ∀ c ∈ (natDigits n).head?, c ≠ '0' := by
  induction n using Nat.strongRecOn with
  | ind n ih =>
    unfold natDigits at ih ⊢
    rcases Nat.lt_or_ge n 10 with hlt | hge
    · have hdigit : ∀ m < 10, 0 < m → Nat.digitChar m ≠ '0' := by decide
      rw [Nat.toDigits_of_lt_base hlt]
      intro c hc
      cases hc
      exact hdigit n hlt h
    · rw [Nat.toDigits_of_base_le (by decide) hge,
        List.head?_append_of_ne_nil _ Nat.toDigits_ne_nil]
      exact ih (n / 10) (by omega) (by omega)

/-- Digits with nothing else behind them are a whole number, or the float of one that is out of
range. -/
theorem readNumberEnd_of_endsValue (negative : Bool) (significand : Nat) (h : EndsValue rest) :
    readNumberEnd negative significand 0 rest = .ok (wholeOrFloat negative significand, rest) := by
  cases rest with
  | nil => rfl
  | cons b rest => rcases h b rfl with rfl | rfl | rfl <;> rfl

/-- The digits of a number that fits are read as the number. -/
theorem readNumber_natDigits (negative : Bool) (hfits : n ≤ maxSignificand)
    (hrest : EndsValue rest) :
    readNumber negative ((natDigits n).map byte ++ rest) =
      .ok (wholeOrFloat negative n, rest) := by
  have hend := readNumberEnd_of_endsValue negative n hrest
  rcases Nat.eq_zero_or_pos n with rfl | hpos
  · -- Zero is written as a digit of its own, and no digit may follow it.
    have hdigit : (rest.head?.map isDigit).getD false = false := by
      cases rest with
      | nil => rfl
      | cons b rest => exact hrest.not_isDigit b rfl
    show readNumber negative (byte '0' :: rest) = _
    rw [readNumber, if_pos rfl, hdigit, if_neg Bool.false_ne_true, hend]
  · have hdigits : IsDigits (natDigits n) := fun c hc =>
      Nat.isDigit_of_mem_toDigits (by decide) (by decide) hc
    have hvalue : Nat.ofDigitChars 10 (natDigits n) 0 = n := Nat.ofDigitChars_ten_toDigits
    have htake := takeDigits_append hdigits (hvalue.symm ▸ hfits) hrest.not_isDigit
    -- All digits are taken, so that none is left over that would only raise the exponent.
    have hdrop : rest.dropWhile isDigit = rest ∧ rest.takeWhile isDigit = [] := by
      cases rest with
      | nil => exact ⟨rfl, rfl⟩
      | cons b rest =>
        have hb : ¬isDigit b = true := Bool.eq_false_iff.1 (hrest.not_isDigit b rfl)
        exact ⟨List.dropWhile_cons_of_neg hb, List.takeWhile_cons_of_neg hb⟩
    rw [hvalue] at htake
    obtain ⟨c, digits, hcons⟩ := List.exists_cons_of_ne_nil
      (show natDigits n ≠ [] from Nat.toDigits_ne_nil)
    have hc : c.isDigit = true := hdigits c (hcons ▸ List.mem_cons_self)
    have hzero : byte c ≠ byte '0' :=
      byte_ne_byte (lt_of_isDigit hc) (by decide) (head_natDigits hpos c (by rw [hcons]; rfl))
    rw [hcons, List.map_cons, List.cons_append] at htake ⊢
    rw [readNumber, if_neg hzero, if_pos (isDigit_byte hc).1, htake]
    dsimp only
    rw [hdrop.1, hdrop.2]
    exact hend

/-- A natural number in range is read as a whole one. -/
theorem wholeOrFloat_false
    (range : -9223372036854775808 ≤ (n : Int) ∧ (n : Int) < 18446744073709551616) :
    wholeOrFloat false n = .whole n range := by
  have hlt : n < 18446744073709551616 := by omega
  unfold wholeOrFloat
  rw [if_pos (Bool.not_false), dif_pos hlt]

/-- A negative integer in range is read as a whole one. -/
theorem wholeOrFloat_true
    (range : -9223372036854775808 ≤ Int.negSucc n ∧ Int.negSucc n < 18446744073709551616) :
    wholeOrFloat true (n + 1) = .whole (.negSucc n) range := by
  have hle : 0 < n + 1 ∧ n + 1 ≤ 9223372036854775808 := by omega
  unfold wholeOrFloat
  rw [if_neg (by decide), dif_pos hle]
  rfl

/-- The digits of a number are written as one byte each. -/
theorem toUtf8_natDigits (n : Nat) : toUtf8 (natDigits n) = (natDigits n).map byte :=
  toUtf8_eq_map fun _ hc =>
    lt_of_isDigit (Nat.isDigit_of_mem_toDigits (by decide) (by decide) hc)

/-- A whole number is read from its digits. -/
theorem begins_whole (value : Int)
    (range : -9223372036854775808 ≤ value ∧ value < 18446744073709551616)
    (hrest : EndsValue rest) :
    Begins (.value (.number (.whole value range)))
      (toUtf8 (Number.whole value range).chars ++ rest) rest := by
  cases value with
  | ofNat n =>
    have hfits : n ≤ maxSignificand := Nat.le_pred_of_lt (Int.ofNat_lt.1 range.2)
    show Begins _ (toUtf8 (natDigits n) ++ rest) rest
    rw [toUtf8_natDigits]
    have hread := readNumber_natDigits false hfits hrest
    rw [wholeOrFloat_false range] at hread
    exact .number hread
  | negSucc n =>
    have hfits : n + 1 ≤ maxSignificand := by unfold maxSignificand; omega
    show Begins _ (toUtf8 ('-' :: natDigits (n + 1)) ++ rest) rest
    rw [toUtf8_cons_of_lt (by decide), toUtf8_natDigits]
    have hread := readNumber_natDigits true hfits hrest
    rw [wholeOrFloat_true range] at hread
    exact .negative hread

end

/-! ## Strings -/

section

variable {c : Char} {b : UInt8} {fuel : Nat} {bytes content rest : List UInt8}

/-- A hexadecimal digit is read as the number that it is written for. -/
theorem hexValue?_hexDigit {n : Nat} (h : n < 16) :
    Text.hexValue? (byte (hexDigit n)) = some n := by
  have hall : ∀ n < 16, Text.hexValue? (byte (hexDigit n)) = some n := by decide
  exact hall n h

/-- Hexadecimal digits are ASCII characters. -/
theorem toNat_hexDigit_lt {n : Nat} (h : n < 16) : (hexDigit n).toNat < 0x80 := by
  have hall : ∀ n < 16, (hexDigit n).toNat < 0x80 := by decide
  exact hall n h

/-- A control character is read from its code in hexadecimal. -/
theorem readUnicodeEscape_of_lt (h : c.toNat < 0x20) (rest : List UInt8) :
    readUnicodeEscape (['0', '0', hexDigit (c.toNat / 16), hexDigit (c.toNat % 16)].map byte ++
      rest) = .ok (c, rest) := by
  have hhex : readHex (['0', '0', hexDigit (c.toNat / 16), hexDigit (c.toNat % 16)].map byte ++
      rest) = .ok (c.toNat, rest) := by
    have hzero : Text.hexValue? (byte '0') = some 0 := rfl
    have hsum : ((0 * 16 + 0) * 16 + c.toNat / 16) * 16 + c.toNat % 16 = c.toNat := by omega
    simp only [List.map_cons, List.map_nil, List.cons_append, List.nil_append, readHex, hzero,
      hexValue?_hexDigit (show c.toNat / 16 < 16 by omega),
      hexValue?_hexDigit (show c.toNat % 16 < 16 by omega), hsum]
  rw [readUnicodeEscape, hhex]
  dsimp only
  rw [if_neg (by omega), if_neg (by omega), Char.ofNat_toNat]

/-- A character is written as itself, if it is none that has an escape, or as a backslash and what
is read as the character. -/
theorem escape_cases (c : Char) :
    (escape c = [c] ∧ 0x20 ≤ c.toNat ∧ c ≠ '"' ∧ c ≠ '\\') ∨
      ∃ letters, escape c = '\\' :: letters ∧ (∀ d ∈ letters, d.toNat < 0x80) ∧
        ∀ rest, readEscape (letters.map byte ++ rest) = .ok (c, rest) := by
  unfold escape
  -- Seven characters have an escape of one letter.
  iterate 7
    split
    · next h =>
      subst h
      exact .inr ⟨_, rfl, List.forall_mem_singleton.2 (by decide), fun _ => rfl⟩
  split
  · next hcontrol =>
    have hletters : ∀ d ∈ ['u', '0', '0', hexDigit (c.toNat / 16), hexDigit (c.toNat % 16)],
        d.toNat < 0x80 := by
      simp only [List.forall_mem_cons]
      exact ⟨by decide, by decide, by decide, toNat_hexDigit_lt (by omega),
        toNat_hexDigit_lt (by omega), List.forall_mem_nil _⟩
    exact .inr ⟨_, rfl, hletters, readUnicodeEscape_of_lt hcontrol⟩
  · next hquote hslash _ _ _ _ _ hcontrol =>
    exact .inl ⟨rfl, Nat.le_of_not_lt hcontrol, hquote, hslash⟩

/-- A byte that stands for itself inside a string. -/
def IsVerbatim (b : UInt8) : Prop :=
  b ≠ byte '"' ∧ b ≠ byte '\\' ∧ ¬b < 0x20

/-- Bytes that stand for themselves are taken over, each in a step. -/
theorem readStringBytes_append {front : List UInt8} (hfront : ∀ b ∈ front, IsVerbatim b)
    (h : readStringBytes fuel bytes = .ok (content, rest)) :
    readStringBytes (fuel + front.length) (front ++ bytes) = .ok (front ++ content, rest) := by
  induction front with
  | nil => exact h
  | cons b front ih =>
    obtain ⟨⟨hquote, hslash, hcontrol⟩, hfront⟩ := List.forall_mem_cons.1 hfront
    rw [List.length_cons, ← Nat.add_assoc, List.cons_append, readStringBytes, if_neg hquote,
      if_neg hslash, if_neg hcontrol, ih hfront]
    rfl

/-- The bytes of a character without an escape stand for themselves. -/
theorem isVerbatim_of_mem_utf8EncodeChar (hcontrol : 0x20 ≤ c.toNat) (hquote : c ≠ '"')
    (hslash : c ≠ '\\') (hb : b ∈ String.utf8EncodeChar c) : IsVerbatim b := by
  rcases Nat.lt_or_ge c.toNat 0x80 with hlt | hge
  · rw [utf8EncodeChar_of_lt hlt, List.mem_singleton] at hb
    have hbyte : b.toNat = c.toNat := hb ▸ toNat_byte hlt
    refine ⟨hb ▸ byte_ne_byte hlt (by decide) hquote, hb ▸ byte_ne_byte hlt (by decide) hslash, ?_⟩
    rw [UInt8.lt_iff_toNat_lt, hbyte]
    exact Nat.not_lt_of_le hcontrol
  · have hhigh : 0x80 ≤ b.toNat := le_of_mem_utf8EncodeChar hge hb
    have hne : ∀ d : Char, d.toNat < 0x80 → b ≠ byte d := by
      rintro d hd rfl
      exact absurd (toNat_byte hd ▸ hhigh) (Nat.not_le_of_lt hd)
    refine ⟨hne '"' (by decide), hne '\\' (by decide), ?_⟩
    rw [UInt8.lt_iff_toNat_lt]
    exact Nat.not_lt_of_le (Nat.le_trans (by decide) hhigh)

/-- A written string is read up to its closing quote. -/
theorem readStringBytes_escape (cs : List Char) (rest : List UInt8)
    (hfuel : (toUtf8 (cs.flatMap escape)).length < fuel) :
    readStringBytes fuel (toUtf8 (cs.flatMap escape) ++ byte '"' :: rest) =
      .ok (toUtf8 cs, rest) := by
  induction cs generalizing fuel with
  | nil =>
    obtain ⟨fuel, rfl⟩ : ∃ k, fuel = k + 1 := ⟨fuel - 1, by omega⟩
    rfl
  | cons c cs ih =>
    rw [List.flatMap_cons, toUtf8_append, List.length_append] at hfuel
    rw [List.flatMap_cons, toUtf8_append, List.append_assoc, toUtf8_cons]
    rcases escape_cases c with ⟨hself, hcontrol, hquote, hslash⟩ | ⟨letters, hesc, hascii, hread⟩
    · have hbytes : toUtf8 (escape c) = String.utf8EncodeChar c := by
        rw [hself, toUtf8_cons]
        exact List.append_nil _
      rw [hbytes] at hfuel ⊢
      -- A step for each byte of the character; what is left is enough for the others.
      obtain ⟨fuel, rfl⟩ : ∃ k, fuel = k + (String.utf8EncodeChar c).length :=
        ⟨fuel - (String.utf8EncodeChar c).length, by omega⟩
      exact readStringBytes_append
        (fun b hb => isVerbatim_of_mem_utf8EncodeChar hcontrol hquote hslash hb) (ih (by omega))
    · have hbytes : toUtf8 (escape c) = byte '\\' :: letters.map byte := by
        rw [hesc, toUtf8_cons_of_lt (by decide), toUtf8_eq_map hascii]
      rw [hbytes, List.length_cons] at hfuel
      rw [hbytes, List.cons_append]
      -- The whole escape is a single step.
      obtain ⟨fuel, rfl⟩ : ∃ k, fuel = k + 1 := ⟨fuel - 1, by omega⟩
      rw [readStringBytes, if_neg (by decide), if_pos rfl, hread]
      dsimp only
      rw [ih (by omega)]
      rfl

/-- A written string is read as the string. -/
theorem readString_escape (s : String) (rest : List UInt8) :
    readString (toUtf8 (s.toList.flatMap escape) ++ byte '"' :: rest) = .ok (s, rest) := by
  have hfuel : (toUtf8 (s.toList.flatMap escape)).length <
      (toUtf8 (s.toList.flatMap escape) ++ byte '"' :: rest).length + 1 := by
    rw [List.length_append]
    omega
  rw [readString, readStringBytes_escape s.toList rest hfuel]
  dsimp only
  rw [fromUTF8?_toUtf8]

/-- A string is written as its escaped characters between quotation marks. -/
theorem toUtf8_quote (s : String) :
    toUtf8 (quote s) = byte '"' :: (toUtf8 (s.toList.flatMap escape) ++ [byte '"']) := by
  unfold quote
  rw [toUtf8_append, toUtf8_cons_of_lt (by decide)]
  rfl

end

/-! ## Values -/

section

variable {v : Json} {bytes tail rest : List UInt8}

/-- A comma or a closing bracket ends a value, whatever stands behind it. -/
theorem endsValue_cons {b : UInt8} (h : b = byte ',' ∨ b = byte ']' ∨ b = byte '\x7d')
    (bytes : List UInt8) : EndsValue (b :: bytes) := by
  intro b' hb
  cases hb
  exact h

/-- There is no blank behind a value. -/
theorem EndsValue.skipSpace (h : EndsValue tail) : skipSpace tail = tail := by
  cases tail with
  | nil => rfl
  | cons b bytes => rcases h b rfl with rfl | rfl | rfl <;> exact skipSpace_cons rfl bytes

/-- There is none in front of it either. -/
theorem Begins.skipSpace (h : Begins (.value v) bytes rest) : skipSpace bytes = bytes := by
  obtain ⟨b, behind, rfl, hspace, -⟩ := h.head
  exact skipSpace_cons hspace behind

/-- The text of a value is read as the value wherever a value ends behind it. -/
def IsReadable (v : Json) : Prop :=
  ∀ tail, EndsValue tail → Begins (.value v) (toUtf8 v.chars ++ tail) tail

/-- An item and those behind it are read as such, if its value and they are. -/
theorem begins_item {items : List Json} (hv : v.IsReadable) (htail : EndsValue tail)
    (hitems : Begins (.items false items) tail rest) :
    Begins (.item (v :: items)) (toUtf8 v.chars ++ tail) rest :=
  .item (hv tail htail) (htail.skipSpace.symm ▸ hitems)

/-- Items that can be read are read up to the closing bracket. -/
theorem begins_items {items : List Json} (hitems : ∀ v ∈ items, v.IsReadable) (hne : items ≠ [])
    (rest : List UInt8) :
    Begins (.item items) (toUtf8 (itemChars items) ++ byte ']' :: rest) rest := by
  induction items with
  | nil => exact absurd rfl hne
  | cons v items ih =>
    obtain ⟨hv, hitems⟩ := List.forall_mem_cons.1 hitems
    cases items with
    | nil => exact begins_item hv (endsValue_cons (.inr (.inl rfl)) rest) .noItem
    | cons w items =>
      have hbehind := ih hitems (List.cons_ne_nil w items)
      -- Behind the comma the reader skips blanks, and the next item begins with none.
      have hspace : skipSpace (toUtf8 (itemChars (w :: items)) ++ byte ']' :: rest) =
          toUtf8 (itemChars (w :: items)) ++ byte ']' :: rest := by
        cases hbehind with
        | item hw _ => exact hw.skipSpace
      have htext : itemChars (v :: w :: items) = v.chars ++ ',' :: itemChars (w :: items) := rfl
      rw [htext, toUtf8_append, List.append_assoc, toUtf8_cons_of_lt (by decide), List.cons_append]
      exact begins_item hv (endsValue_cons (.inl rfl) _) (.nextItem (hspace.symm ▸ hbehind))

/-- A member and those behind it are read as such, if its value and they are. -/
theorem begins_member {key : String} {members : List (String × Json)} (hv : v.IsReadable)
    (htail : EndsValue tail) (hmembers : Begins (.members false members) tail rest) :
    ∃ bytes, toUtf8 (quote key ++ ':' :: v.chars) ++ tail = byte '"' :: bytes ∧
      Begins (.member ((key, v) :: members)) bytes rest := by
  refine ⟨toUtf8 (key.toList.flatMap escape) ++
    byte '"' :: byte ':' :: (toUtf8 v.chars ++ tail), ?_, ?_⟩
  · rw [toUtf8_append, toUtf8_quote, toUtf8_cons_of_lt (by decide)]
    simp only [List.cons_append, List.append_assoc, List.nil_append]
  · have hvalue := hv tail htail
    exact .member (readString_escape key _) (skipSpace_cons rfl _) (hvalue.skipSpace.symm ▸ hvalue)
      (htail.skipSpace.symm ▸ hmembers)

/-- Members whose values can be read are read up to the closing brace. -/
theorem begins_members {members : List (String × Json)} (hmembers : ∀ m ∈ members, m.2.IsReadable)
    (hne : members ≠ []) (rest : List UInt8) :
    ∃ bytes, toUtf8 (memberChars members) ++ byte '\x7d' :: rest = byte '"' :: bytes ∧
      Begins (.member members) bytes rest := by
  induction members with
  | nil => exact absurd rfl hne
  | cons m members ih =>
    obtain ⟨hv, hmembers⟩ := List.forall_mem_cons.1 hmembers
    cases members with
    | nil => exact begins_member hv (endsValue_cons (.inr (.inr rfl)) rest) .noMember
    | cons n members =>
      obtain ⟨bytes, hbytes, hbehind⟩ := ih hmembers (List.cons_ne_nil n members)
      have htext : memberChars (m :: n :: members) =
          (quote m.1 ++ ':' :: m.2.chars) ++ ',' :: memberChars (n :: members) := rfl
      rw [htext, toUtf8_append, List.append_assoc, toUtf8_cons_of_lt (by decide), List.cons_append,
        hbytes]
      exact begins_member hv (endsValue_cons (.inl rfl) _)
        (.nextMember (skipSpace_cons rfl bytes) hbehind)

/-- The text of a value without floats is read as the value. -/
theorem IsFloatFree.isReadable {v : Json} (h : v.IsFloatFree) : v.IsReadable := by
  induction v using inductionOn with
  | null => exact fun tail _ => .nullWord
  | bool b =>
    cases b with
    | true => exact fun tail _ => .trueWord
    | false => exact fun tail _ => .falseWord
  | number n =>
    cases n with
    | whole value range => exact fun tail htail => begins_whole value range htail
    | float x => exact absurd (.itself _) (h x)
  | string s =>
    intro tail _
    show Begins _ (toUtf8 (quote s) ++ tail) tail
    rw [toUtf8_quote, List.cons_append, List.append_assoc]
    exact .string (readString_escape s tail)
  | array items ih =>
    intro tail _
    have hitems : ∀ v ∈ items, v.IsReadable := fun v hv =>
      ih v hv (isFloatFree_array_iff.1 h v hv)
    have hbytes : toUtf8 (chars (.array items)) ++ tail =
        byte '[' :: (toUtf8 (itemChars items) ++ byte ']' :: tail) := by
      rw [chars, toUtf8_append, toUtf8_cons_of_lt (by decide), List.append_assoc]
      rfl
    rw [hbytes]
    cases items with
    | nil => exact .array .noItem
    | cons w items =>
      have hbegins := begins_items hitems (List.cons_ne_nil w items) tail
      refine .array (.firstItem ?_)
      cases hbegins with
      | item hw hrest => exact hw.skipSpace.symm ▸ .item hw hrest
  | object members ih =>
    intro tail _
    have hmembers : ∀ m ∈ members, m.2.IsReadable := fun m hm =>
      ih m hm (isFloatFree_object_iff.1 h m hm)
    have hbytes : toUtf8 (chars (.object members)) ++ tail =
        byte '\x7b' :: (toUtf8 (memberChars members) ++ byte '\x7d' :: tail) := by
      rw [chars, toUtf8_append, toUtf8_cons_of_lt (by decide), List.append_assoc]
      rfl
    rw [hbytes]
    cases members with
    | nil => exact .object .noMember
    | cons m members =>
      obtain ⟨bytes, hquote, hbegins⟩ :=
        begins_members hmembers (List.cons_ne_nil m members) tail
      rw [hquote]
      refine .object ?_
      rw [skipSpace_cons rfl]
      exact .firstMember hbegins

end

/-- The text of a value without floats is read as the value, if that is not nested too deep. -/
theorem parse_text {v : Json} (hfloat : v.IsFloatFree) (hnesting : v.nesting ≤ maxDepth) :
    parse v.text = .ok v := by
  have hend : EndsValue [] := fun b hb => nomatch hb
  have hbegins := hfloat.isReadable [] hend
  have hspace := hbegins.skipSpace
  rw [List.append_nil] at hbegins hspace
  unfold parse text
  rw [toUTF8_ofList]
  exact parseBytes_eq_ok_iff.2 ⟨⟨[], hspace.symm ▸ hbegins, rfl⟩, hnesting⟩

end ChangeFeed.Json
