import ChangeFeed.Json.Token
import ChangeFeed.Proofs.Result

/-!
# What a leaf takes up

A number takes up at least one byte (`Json.length_readNumber`), and a string at least its closing
quote (`Json.length_readString`). A word is the bytes of its letters (`Json.readWord_eq_ok_iff`).
-/

namespace ChangeFeed.Json

/-- A word is read where its letters stand. -/
theorem readWord_eq_ok_iff {cs : List Char} {bytes rest : List UInt8} :
    readWord cs bytes = .ok rest ↔ bytes = cs.map byte ++ rest := by
  induction cs generalizing bytes with
  | nil => exact ⟨Except.ok.inj, congrArg Except.ok⟩
  | cons c cs ih =>
    cases bytes with
    | nil => exact ⟨fun h => (nomatch h), fun h => (nomatch h)⟩
    | cons b bytes =>
      rw [readWord, List.map_cons, List.cons_append, List.cons.injEq, ← ih]
      split
      · next hb => exact ⟨fun h => ⟨hb, h⟩, fun h => h.2⟩
      · next hb => exact ⟨fun h => (nomatch h), fun h => absurd h.1 hb⟩

/-! ## Numbers -/

section

variable {negative : Bool} {significand dropped : Nat} {exponent : Int} {bytes rest : List UInt8}
  {n : Number}

/-- Digits that are taken leave no more bytes than there were. -/
theorem length_takeDigits (significand : Nat) (bytes : List UInt8) :
    (takeDigits significand bytes).2.2.length ≤ bytes.length := by
  induction bytes generalizing significand with
  | nil => exact Nat.le_refl 0
  | cons b bytes ih =>
    unfold takeDigits
    split
    · exact Nat.le_succ_of_le (ih _)
    · exact Nat.le_refl _

/-- A first digit always fits. -/
theorem length_takeDigits_cons {b : UInt8} (hdigit : isDigit b = true) (bytes : List UInt8) :
    (takeDigits 0 (b :: bytes)).2.2.length ≤ bytes.length := by
  have hfits : 0 * 10 + digitOf b ≤ maxSignificand := by
    have := b.toNat_lt
    unfold digitOf maxSignificand
    omega
  rw [takeDigits, if_pos (by rw [hdigit, decide_eq_true hfits]; rfl)]
  exact length_takeDigits _ bytes

/-- An exponent that is read leaves no more bytes than there were. -/
theorem length_readExponent (h : readExponent negative significand exponent bytes = .ok (n, rest)) :
    rest.length ≤ bytes.length := by
  unfold readExponent at h
  split at h
  next minus digits hsign =>
  have hbehind : digits.length ≤ bytes.length := by
    split at hsign
    · split at hsign
      · cases hsign
        exact Nat.le_succ _
      · split at hsign
        · cases hsign
          exact Nat.le_succ _
        · cases hsign
          exact Nat.le_refl _
    · cases hsign
      exact Nat.le_refl 0
  refine Nat.le_trans ?_ hbehind
  split at h
  · cases h
  · split at h
    · cases h
    · dsimp only at h
      split at h
      · obtain ⟨m, -, hm⟩ := map_eq_ok_iff.1 h
        cases hm
        exact (List.dropWhile_suffix isDigit).length_le
      · split at h
        · cases h
        · cases h
          exact (List.dropWhile_suffix isDigit).length_le

/-- The end of a float that is read leaves no more bytes than there were. -/
theorem length_readFloatEnd (h : readFloatEnd negative significand exponent bytes = .ok (n, rest)) :
    rest.length ≤ bytes.length := by
  unfold readFloatEnd at h
  cases bytes with
  | nil =>
    obtain ⟨m, -, hm⟩ := map_eq_ok_iff.1 h
    cases hm
    exact Nat.le_refl 0
  | cons b bytes =>
    dsimp only at h
    split at h
    · exact Nat.le_succ_of_le (length_readExponent h)
    · obtain ⟨m, -, hm⟩ := map_eq_ok_iff.1 h
      cases hm
      exact Nat.le_refl _

/-- A fraction that is read leaves no more bytes than there were. -/
theorem length_readFraction (h : readFraction negative significand exponent bytes = .ok (n, rest)) :
    rest.length ≤ bytes.length := by
  cases bytes with
  | nil => cases h
  | cons b bytes =>
    unfold readFraction at h
    dsimp only at h
    split at h
    · cases h
    · calc rest.length
          ≤ ((takeDigits significand (b :: bytes)).2.2.dropWhile isDigit).length :=
            length_readFloatEnd h
        _ ≤ (takeDigits significand (b :: bytes)).2.2.length :=
            (List.dropWhile_suffix isDigit).length_le
        _ ≤ (b :: bytes).length := length_takeDigits significand _

/-- The end of a number that is read leaves no more bytes than there were. -/
theorem length_readNumberEnd
    (h : readNumberEnd negative significand dropped bytes = .ok (n, rest)) :
    rest.length ≤ bytes.length := by
  unfold readNumberEnd at h
  cases bytes with
  | nil =>
    dsimp only at h
    split at h
    · cases h
      exact Nat.le_refl 0
    · exact length_readFloatEnd h
  | cons b bytes =>
    dsimp only at h
    split at h
    · exact Nat.le_succ_of_le (length_readFraction h)
    · split at h
      · exact Nat.le_succ_of_le (length_readExponent h)
      · split at h
        · cases h
          exact Nat.le_refl _
        · exact length_readFloatEnd h

/-- A number takes up at least its first digit. -/
theorem length_readNumber (h : readNumber negative bytes = .ok (n, rest)) :
    rest.length < bytes.length := by
  cases bytes with
  | nil => cases h
  | cons b bytes =>
    unfold readNumber at h
    dsimp only at h
    split at h
    · split at h
      · cases h
      · exact Nat.lt_succ_of_le (length_readNumberEnd h)
    · split at h
      · next hdigit =>
        calc rest.length
            ≤ ((takeDigits 0 (b :: bytes)).2.2.dropWhile isDigit).length := length_readNumberEnd h
          _ ≤ (takeDigits 0 (b :: bytes)).2.2.length :=
              (List.dropWhile_suffix isDigit).length_le
          _ < (b :: bytes).length := Nat.lt_succ_of_le (length_takeDigits_cons hdigit bytes)
      · cases h

end

/-! ## Strings -/

section

variable {bytes rest : List UInt8} {c : Char} {n : Nat}

/-- Hexadecimal digits that are read leave fewer bytes than there were. -/
theorem length_readHex (h : readHex bytes = .ok (n, rest)) : rest.length < bytes.length := by
  unfold readHex at h
  split at h
  · split at h
    · cases h
      simp only [List.length_cons]
      omega
    · cases h
  · cases h

/-- The second half of a surrogate pair that is read leaves fewer bytes than there were. -/
theorem length_readLowSurrogate {high : Nat} (h : readLowSurrogate high bytes = .ok (c, rest)) :
    rest.length < bytes.length := by
  unfold readLowSurrogate at h
  split at h
  · cases h
  split at h
  · cases h
  split at h
  · cases h
  split at h
  · cases h
  split at h
  · cases h
  · next low behind hhex =>
    have hbehind : rest = behind := by
      by_cases hlow : low < 0xDC00 ∨ 0xDFFF < low
      · rw [if_pos hlow] at h
        cases h
      · rw [if_neg hlow] at h
        exact (congrArg Prod.snd (Except.ok.inj h)).symm
    rw [hbehind]
    exact Nat.lt_succ_of_lt (Nat.lt_succ_of_lt (length_readHex hhex))

/-- A character that is read from its code leaves fewer bytes than there were. -/
theorem length_readUnicodeEscape (h : readUnicodeEscape bytes = .ok (c, rest)) :
    rest.length < bytes.length := by
  unfold readUnicodeEscape at h
  split at h
  · cases h
  · next hhex =>
    have hlength := length_readHex hhex
    split at h
    · cases h
    split at h
    · exact Nat.lt_trans (length_readLowSurrogate h) hlength
    · cases h
      exact hlength

/-- An escape that is read leaves fewer bytes than there were. -/
theorem length_readEscape (h : readEscape bytes = .ok (c, rest)) : rest.length < bytes.length := by
  cases bytes with
  | nil => cases h
  | cons b bytes =>
    rw [readEscape] at h
    -- Eight escapes are one letter long.
    iterate 8
      split at h
      · cases h
        exact Nat.lt_succ_self _
    split at h
    · exact Nat.lt_succ_of_lt (length_readUnicodeEscape h)
    · cases h

/-- A string that is read leaves fewer bytes than there were: its closing quotation mark is gone. -/
theorem length_readStringBytes {fuel : Nat} {content : List UInt8}
    (h : readStringBytes fuel bytes = .ok (content, rest)) : rest.length < bytes.length := by
  induction fuel generalizing bytes content with
  | zero => cases h
  | succ fuel ih =>
    cases bytes with
    | nil => cases h
    | cons b bytes =>
      rw [readStringBytes] at h
      split at h
      · cases h
        exact Nat.lt_succ_self _
      split at h
      · split at h
        · cases h
        · next hescape =>
          obtain ⟨⟨tail, rest'⟩, htail, hrest⟩ := map_eq_ok_iff.1 h
          cases hrest
          exact Nat.lt_succ_of_lt (Nat.lt_trans (ih htail) (length_readEscape hescape))
      split at h
      · cases h
      · obtain ⟨⟨tail, rest'⟩, htail, hrest⟩ := map_eq_ok_iff.1 h
        cases hrest
        exact Nat.lt_succ_of_lt (ih htail)

/-- A string takes up at least its closing quote. -/
theorem length_readString {s : String} (h : readString bytes = .ok (s, rest)) :
    rest.length < bytes.length := by
  unfold readString at h
  split at h
  · cases h
  · next hbytes =>
    split at h
    · cases h
      exact length_readStringBytes hbytes
    · cases h

end

end ChangeFeed.Json
