import ChangeFeed.Text.Utf8

/-!
# The bytes of a text

The UTF-8 bytes of a string are those of its characters (`Text.toUtf8_toList`), and they are read
back as the string (`Text.fromUTF8?_toUtf8`). An ASCII character is written as itself, and any other
one without a byte that could be taken for ASCII (`Text.le_of_mem_utf8EncodeChar`).

Texts compare by their bytes as they do by their characters (`Text.toUtf8_lt_toUtf8_iff`): two
characters are told apart by the first byte in which they differ, whatever comes behind them
(`Text.utf8EncodeChar_append_lt`).
-/

namespace ChangeFeed.Text

/-- A character in front puts its bytes in front. -/
theorem toUtf8_cons (c : Char) (cs : List Char) :
    toUtf8 (c :: cs) = String.utf8EncodeChar c ++ toUtf8 cs :=
  List.flatMap_cons

/-- Every character has bytes. -/
theorem toUtf8_cons_ne_nil (c : Char) (cs : List Char) : toUtf8 (c :: cs) ≠ [] :=
  toUtf8_cons c cs ▸ List.append_ne_nil_of_left_ne_nil String.utf8EncodeChar_ne_nil _

/-- The bytes of a text behind another stand behind the bytes of that. -/
theorem toUtf8_append (cs cs' : List Char) : toUtf8 (cs ++ cs') = toUtf8 cs ++ toUtf8 cs' :=
  List.flatMap_append

/-- The bytes of a string made of characters. -/
theorem toUTF8_ofList (cs : List Char) : (String.ofList cs).toUTF8.data.toList = toUtf8 cs := by
  rw [String.toUTF8_eq_toByteArray, String.toByteArray_ofList, List.utf8Encode,
    List.data_toByteArray]
  rfl

/-- The bytes of a string are those of its characters. -/
theorem toUtf8_toList (s : String) : toUtf8 s.toList = s.toUTF8.data.toList := by
  rw [← toUTF8_ofList, String.ofList_toList]

/-- The bytes of a string are read as the string. -/
theorem fromUTF8?_toUtf8 (s : String) : String.fromUTF8? ⟨(toUtf8 s.toList).toArray⟩ = some s := by
  rw [toUtf8_toList, Array.toArray_toList]
  exact dif_pos s.isValidUTF8

/-! ## ASCII -/

/-- An ASCII character is its own byte. -/
theorem utf8EncodeChar_of_lt {c : Char} (h : c.toNat < 0x80) :
    String.utf8EncodeChar c = [c.toNat.toUInt8] :=
  if_pos (Nat.le_of_lt_succ h)

/-- Where no ASCII character is written, there is no byte of one. -/
theorem le_of_mem_utf8EncodeChar {c : Char} {b : UInt8} (h : 0x80 ≤ c.toNat)
    (hb : b ∈ String.utf8EncodeChar c) : 0x80 ≤ b.toNat := by
  have hle : 0x80 ≤ c.val.toNat := h
  unfold String.utf8EncodeChar at hb
  generalize c.val.toNat = n at hle hb
  dsimp only at hb
  split at hb
  · omega
  · repeat' split at hb
    all_goals
      simp only [List.mem_cons, List.not_mem_nil, or_false] at hb
      rcases hb with rfl | rfl | rfl | rfl <;> rw [UInt8.toNat_ofNat'] <;> omega

/-! ## The order of bytes -/

/-- The code of a character lies in one of the seventeen planes. -/
theorem toNat_lt (c : Char) : c.val.toNat < 0x110000 := by
  rcases c.valid with h | ⟨-, h⟩
  · exact Nat.lt_trans h (by decide)
  · exact h

/-- The bytes of a smaller character come first, whatever stands behind them. -/
theorem utf8EncodeChar_append_lt {c d : Char} (h : c < d) (x y : List UInt8) :
    String.utf8EncodeChar c ++ x < String.utf8EncodeChar d ++ y := by
  have hlt : c.val.toNat < d.val.toNat := h
  have hd : d.val.toNat < 0x110000 := toNat_lt d
  unfold String.utf8EncodeChar
  generalize c.val.toNat = m, d.val.toNat = n at hlt hd
  dsimp only
  -- The first byte says how many there are; for as many of them the highest bits come first.
  repeat' split
  all_goals
    simp (disch := omega) only [List.cons_append, List.cons_lt_cons_iff, UInt8.lt_iff_toNat_lt,
      UInt8.toNat_ofNat', ← UInt8.toNat_inj, Nat.mod_eq_of_lt, Nat.add_lt_add_iff_right,
      Nat.add_right_cancel_iff]
    omega

/-- The bytes of a smaller text come first. -/
theorem toUtf8_lt_toUtf8 {cs cs' : List Char} (h : cs < cs') : toUtf8 cs < toUtf8 cs' := by
  induction cs generalizing cs' with
  | nil =>
    cases cs' with
    | nil => exact absurd h (List.lt_irrefl [])
    | cons d cs' =>
      obtain ⟨b, bytes, hbytes⟩ := List.exists_cons_of_ne_nil (toUtf8_cons_ne_nil d cs')
      rw [hbytes]
      exact List.nil_lt_cons b bytes
  | cons c cs ih =>
    cases cs' with
    | nil => exact absurd h (List.not_lt_nil _)
    | cons d cs' =>
      rw [toUtf8_cons, toUtf8_cons]
      rcases List.cons_lt_cons_iff.1 h with hlt | ⟨rfl, hrest⟩
      · exact utf8EncodeChar_append_lt hlt _ _
      · exact List.append_left_lt (ih hrest)

/-- Strings compare by their bytes as they do by their characters. -/
theorem toUtf8_lt_toUtf8_iff {s t : String} : toUtf8 s.toList < toUtf8 t.toList ↔ s < t := by
  refine ⟨fun h => ?_, toUtf8_lt_toUtf8⟩
  by_cases hlt : s < t
  · exact hlt
  · have hgt : ¬t < s := fun hgt => List.lt_asymm h (toUtf8_lt_toUtf8 hgt)
    have heq : s = t := String.le_antisymm (String.not_lt.1 hgt) (String.not_lt.1 hlt)
    rw [heq] at h
    exact absurd h (List.lt_irrefl _)

end ChangeFeed.Text
