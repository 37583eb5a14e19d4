import ChangeFeed.Proofs.Json.Writing
import ChangeFeed.Record.Coercion

/-!
# Structured values as texts

A value other than a string becomes a text by being written. Unless there is a float in it, or it is
nested deeper than the reader goes, the text is read as the value again, its members in the order of
their keys' bytes (`Coercion.text_of_isRecoverable`). So no two such values become the same text.
-/

namespace ChangeFeed

/-- A value that its text gives back: no string, without a float in it, and not nested deeper than
the reader goes. -/
structure Json.IsRecoverable (v : Json) : Prop where
  not_string : ∀ s, v ≠ .string s
  floatFree : v.IsFloatFree
  shallow : v.nesting ≤ 127

namespace Coercion

variable {v : Json}

/-- What is no string becomes the text of its canonical form. -/
theorem text_of_not_string (h : ∀ s, v ≠ .string s) : text v = v.canonical.text := by
  cases v with
  | string s => exact absurd rfl (h s)
  | null => rfl
  | bool b => rfl
  | number n => rfl
  | array items => rfl
  | object members => rfl

/-- The text that stands for a value is read as the canonical form of the value. -/
theorem parse_text (h : v.IsRecoverable) : Json.parse (text v) = .ok v.canonical := by
  rw [text_of_not_string h.not_string]
  exact Json.parse_text h.floatFree.canonical
    (Nat.le_trans (Json.nesting_canonical_le v) h.shallow)

/-- The text of such a value is read as its canonical form, which is the value itself if its keys
are in order. Two of them with the same text have the same canonical form. -/
theorem text_of_isRecoverable (h : v.IsRecoverable) :
    Json.parse (text v) = .ok v.canonical ∧ v.canonical.IsCanonical ∧
      (v.IsCanonical → v.canonical = v) ∧
      ∀ w : Json, w.IsRecoverable → text w = text v → w.canonical = v.canonical := by
  refine ⟨parse_text h, Json.isCanonical_canonical v, Json.canonical_eq_self, fun w hw htext => ?_⟩
  have hparse : Json.parse (text v) = .ok w.canonical := htext ▸ parse_text hw
  exact Except.ok.inj (hparse.symm.trans (parse_text h))

/-- Keys are put in order, the larger character behind the smaller one. Escapes come back, and so do
the least and the largest whole number. -/
theorem text_of_isRecoverable_keys :
    let least : Json := .number (.whole (-2 ^ 63) (by decide))
    let large : Json := .number (.whole (2 ^ 64 - 1) (by decide))
    let v : Json := .object [("😀", .array [.null, large]), ("\uffff\"\n", least)]
    let w : Json := .object [("\uffff\"\n", least), ("😀", .array [.null, large])]
    v.IsRecoverable ∧ w.IsRecoverable ∧ w.IsCanonical ∧
      text v = "\x7b\"\uffff\\\"\\n\":-9223372036854775808,\"😀\":[null,18446744073709551615]\x7d" ∧
      text w = text v ∧ Json.parse (text v) = .ok w ∧ Json.parse (text w) = .ok w ∧
      w.canonical = v.canonical := by
  have hnull : Json.IsFloatFree .null := by
    intro x hx
    cases hx
  intro least large v w
  have hitems : Json.IsFloatFree (.array [.null, large]) := by
    refine Json.isFloatFree_array_iff.2 ?_
    simp only [List.forall_mem_cons]
    exact ⟨hnull, Json.isFloatFree_whole _ _, List.forall_mem_nil _⟩
  have hfloat : v.IsFloatFree := by
    refine Json.isFloatFree_object_iff.2 ?_
    simp only [List.forall_mem_cons]
    exact ⟨hitems, Json.isFloatFree_whole _ _, List.forall_mem_nil _⟩
  have hform : v.canonical = w := by cbv
  have hcanonical : w.IsCanonical := hform ▸ Json.isCanonical_canonical v
  have hobject : ∀ members s, Json.object members ≠ .string s := by
    intro members s h
    cases h
  have hv : v.IsRecoverable := ⟨hobject _, hfloat, by decide⟩
  have hw : w.IsRecoverable := ⟨hobject _, hform ▸ hfloat.canonical, by decide⟩
  have htext : text w = text v := by cbv
  obtain ⟨hparse, -, -, hunique⟩ := text_of_isRecoverable hv
  obtain ⟨hparse', -, hself, -⟩ := text_of_isRecoverable hw
  rw [hform] at hparse
  rw [hself hcanonical] at hparse'
  exact ⟨hv, hw, hcanonical, by cbv, htext, hparse, hparse', hunique w hw htext⟩

end Coercion

end ChangeFeed
