/-!
# Segments of a text

Cutting a text at separators, and the lower case of its ASCII letters.
-/

namespace ChangeFeed.Text

/-- The part before the first `sep` and the part after it; none without a `sep`. -/
def splitFirst (sep : Char) : List Char → Option (List Char × List Char)
  | [] => none
  | c :: cs =>
    if c = sep then some ([], cs)
    else (splitFirst sep cs).map fun (before, after) => (c :: before, after)

/-- The two parts make up the text, with the separator between them. -/
theorem eq_append_of_splitFirst {sep : Char} {cs before after : List Char}
    (h : splitFirst sep cs = some (before, after)) : cs = before ++ sep :: after := by
  induction cs generalizing before with
  | nil => cases h
  | cons c cs ih =>
    unfold splitFirst at h
    split at h
    · next hc =>
      cases h
      rw [hc]
      rfl
    · obtain ⟨⟨before', after'⟩, hsplit, hparts⟩ := Option.map_eq_some_iff.1 h
      cases hparts
      rw [List.cons_append, ← ih hsplit]

/-- All parts between the separators; a text without one is a single part. -/
def splitAll (sep : Char) : List Char → List (List Char)
  | [] => [[]]
  | c :: cs =>
    if c = sep then [] :: splitAll sep cs
    else
      match splitAll sep cs with
      | part :: parts => (c :: part) :: parts
      | [] => [[c]]

/-- The part after the last `sep`; the whole text without one. -/
def lastSegment (sep : Char) (cs : List Char) : List Char :=
  (cs.reverse.takeWhile (· ≠ sep)).reverse

/-- Lower case for the ASCII letters; every other character stays. -/
def lowerAscii (cs : List Char) : List Char :=
  cs.map Char.toLower

/-- Drops every leading repetition of `lead`; `fuel` is at least their number. -/
def dropRepeats (lead : List Char) : Nat → List Char → List Char
  | 0, cs => cs
  | fuel + 1, cs =>
    match lead.isPrefixOf? cs with
    | some rest => dropRepeats lead fuel rest
    | none => cs

end ChangeFeed.Text
