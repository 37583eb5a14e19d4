import ChangeFeed.Proofs.Text.Blank
import ChangeFeed.Text.Segment
import Mathlib.Data.List.TakeWhile

/-!
# Last segments, and the case of letters

The last segment of a text is the one part of it without separators that is all of the text or
stands behind a separator (`lastSegment_eq_iff`), so that no text before a separator changes it
(`lastSegment_append`). The case of an ASCII letter matters neither to blanks nor to dots: a text
may be put in lower case before it is trimmed and cut (`lowerAscii_trim`, `lowerAscii_lastSegment`).
-/

namespace ChangeFeed.Text

/-! ## Segments -/

section

variable {sep : Char} {cs segment : List Char}

/-- A text without separators is a single segment. -/
theorem lastSegment_of_notMem (h : sep ∉ cs) : lastSegment sep cs = cs := by
  unfold lastSegment
  rw [List.takeWhile_eq_self_iff.2, List.reverse_reverse]
  intro c hc
  rw [decide_eq_true_eq]
  rintro rfl
  exact h (List.mem_reverse.1 hc)

/-- What stands before a separator is not part of the last segment. -/
theorem lastSegment_append (sep : Char) (before cs : List Char) :
    lastSegment sep (before ++ sep :: cs) = lastSegment sep cs := by
  unfold lastSegment
  rw [List.reverse_append, List.reverse_cons, List.append_assoc, List.takeWhile_append,
    List.singleton_append, List.takeWhile_cons_of_neg (by simp), List.append_nil]
  split
  · next h => rw [(List.takeWhile_prefix _).eq_of_length h]
  · rfl

/-- The last segment has no separator, and is all of the text or stands behind one. -/
theorem lastSegment_eq_iff :
    lastSegment sep cs = segment ↔
      sep ∉ segment ∧ (cs = segment ∨ ∃ before, cs = before ++ sep :: segment) := by
  constructor
  · rintro rfl
    by_cases h : sep ∈ cs
    · -- The first separator from the end is the last one.
      obtain ⟨after, before, hreverse, hafter⟩ :=
        List.eq_append_cons_of_mem (List.mem_reverse.2 h)
      have hcs : cs = before.reverse ++ sep :: after.reverse := by
        rw [← List.reverse_reverse cs, hreverse, List.reverse_append, List.reverse_cons,
          List.append_assoc, List.singleton_append]
      have hsegment : lastSegment sep cs = after.reverse := by
        rw [hcs, lastSegment_append, lastSegment_of_notMem fun h => hafter (List.mem_reverse.1 h)]
      rw [hsegment]
      exact ⟨fun h => hafter (List.mem_reverse.1 h), .inr ⟨_, hcs⟩⟩
    · rw [lastSegment_of_notMem h]
      exact ⟨h, .inl rfl⟩
  · rintro ⟨h, rfl | ⟨before, rfl⟩⟩
    · exact lastSegment_of_notMem h
    · rw [lastSegment_append, lastSegment_of_notMem h]

/-- A text is cut at the first separator in it. -/
theorem splitFirst_append {before : List Char} (h : sep ∉ before) (after : List Char) :
    splitFirst sep (before ++ sep :: after) = some (before, after) := by
  induction before with
  | nil => exact if_pos rfl
  | cons c rest ih =>
    rw [List.mem_cons, not_or] at h
    rw [List.cons_append, splitFirst, if_neg (Ne.symm h.1), ih h.2]
    rfl

/-- A text that is not cut has no separator. -/
theorem splitFirst_eq_none_iff : splitFirst sep cs = none ↔ sep ∉ cs := by
  constructor
  · intro h hmem
    obtain ⟨before, after, rfl, hbefore⟩ := List.eq_append_cons_of_mem hmem
    rw [splitFirst_append hbefore] at h
    cases h
  · intro h
    cases hcut : splitFirst sep cs with
    | none => rfl
    | some parts =>
      rw [eq_append_of_splitFirst hcut] at h
      exact absurd (List.mem_append_right _ List.mem_cons_self) h

/-- The two parts that a text is cut into are those before and behind its first separator. -/
theorem splitFirst_eq_some_iff {before after : List Char} :
    splitFirst sep cs = some (before, after) ↔ cs = before ++ sep :: after ∧ sep ∉ before := by
  constructor
  · intro h
    have hmem : sep ∈ cs := by
      by_contra hnone
      rw [splitFirst_eq_none_iff.2 hnone] at h
      cases h
    obtain ⟨first, rest, rfl, hfirst⟩ := List.eq_append_cons_of_mem hmem
    rw [splitFirst_append hfirst] at h
    cases h
    exact ⟨rfl, hfirst⟩
  · rintro ⟨rfl, hbefore⟩
    exact splitFirst_append hbefore after

end

/-! ## Case -/

/-- A character in lower case, by number. -/
theorem toNat_toLower (c : Char) :
    c.toLower.toNat = if 65 ≤ c.toNat ∧ c.toNat ≤ 90 then c.toNat + 32 else c.toNat := by
  have hval : c.toNat = c.val.toNat := rfl
  unfold Char.toLower
  split
  · next h =>
    rw [if_pos (show 65 ≤ c.toNat ∧ c.toNat ≤ 90 from h)]
    show (c.val + ('a'.val - 'A'.val)).toNat = _
    rw [UInt32.toNat_add, show ('a'.val - 'A'.val).toNat = 32 from rfl]
    have : c.val.toNat ≤ 90 := h.2
    omega
  · next h => rw [if_neg (show ¬(65 ≤ c.toNat ∧ c.toNat ≤ 90) from h)]

/-- A character in upper case, by number. -/
theorem toNat_toUpper (c : Char) :
    c.toUpper.toNat = if 97 ≤ c.toNat ∧ c.toNat ≤ 122 then c.toNat - 32 else c.toNat := by
  have hval : c.toNat = c.val.toNat := rfl
  unfold Char.toUpper
  split
  · next h =>
    rw [if_pos (show 97 ≤ c.toNat ∧ c.toNat ≤ 122 from h)]
    show (c.val + ('A'.val - 'a'.val)).toNat = _
    rw [UInt32.toNat_add, show ('A'.val - 'a'.val).toNat = 2 ^ 32 - 32 from rfl]
    have : 97 ≤ c.val.toNat ∧ c.val.toNat ≤ 122 := h
    omega
  · next h => rw [if_neg (show ¬(97 ≤ c.toNat ∧ c.toNat ≤ 122) from h)]

/-- One character for another in which only the case of an ASCII letter may differ. -/
def IsRecased (c d : Char) : Prop :=
  d = c ∨ d = c.toLower ∨ d = c.toUpper

/-- In lower case there is no difference any more. -/
theorem IsRecased.toLower_eq {c d : Char} (h : IsRecased c d) : c.toLower = d.toLower := by
  apply Char.toNat_inj.1
  rcases h with rfl | rfl | rfl
  · rfl
  · grind [toNat_toLower]
  · grind [toNat_toLower, toNat_toUpper]

/-- A letter is no blank in either case. -/
theorem isBlank_toLower (c : Char) : isBlank c.toLower = isBlank c := by
  unfold isBlank
  rw [Bool.eq_iff_iff]
  simp only [toNat_toLower, Bool.or_eq_true, Bool.and_eq_true, decide_eq_true_eq]
  split <;> omega

/-- A letter is no dot in either case. -/
theorem toLower_eq_dot_iff (c : Char) : c.toLower = '.' ↔ c = '.' := by
  rw [← Char.toNat_inj, ← Char.toNat_inj, toNat_toLower, show '.'.toNat = 46 from rfl]
  split <;> omega

/-- Blanks may be dropped before or after letters are put in lower case. -/
theorem lowerAscii_trim (cs : List Char) : lowerAscii (trim cs) = trim (lowerAscii cs) := by
  have hdrop : ∀ ds : List Char,
      (lowerAscii ds).dropWhile isBlank = lowerAscii (ds.dropWhile isBlank) := by
    intro ds
    unfold lowerAscii
    rw [List.dropWhile_map, show isBlank ∘ Char.toLower = isBlank from funext isBlank_toLower]
  have hreverse : ∀ ds : List Char, (lowerAscii ds).reverse = lowerAscii ds.reverse := fun ds =>
    (List.map_reverse ..).symm
  unfold trim trimRight trimLeft
  rw [hdrop, hreverse, hdrop, hreverse]

/-- A text may be cut at its dots before or after letters are put in lower case. -/
theorem lowerAscii_lastSegment (cs : List Char) :
    lowerAscii (lastSegment '.' cs) = lastSegment '.' (lowerAscii cs) := by
  have hdot : (fun c => decide (c ≠ '.')) ∘ Char.toLower = fun c => decide (c ≠ '.') := by
    funext c
    exact decide_eq_decide.2 (not_congr (toLower_eq_dot_iff c))
  unfold lastSegment lowerAscii
  rw [← List.map_reverse, List.takeWhile_map, hdot, List.map_reverse]

end ChangeFeed.Text
