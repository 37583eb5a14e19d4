import ChangeFeed.Text.Blank
import Mathlib.Data.List.Basic

/-!
# Texts between blanks

Every text is one that neither begins nor ends with a blank, with blanks around it
(`exists_eq_append_trim`). Trimming leaves just that text (`trim_append`), so that more blanks
around it change nothing (`trim_append_blanks`).
-/

namespace ChangeFeed.Text

/-- Nothing but blanks. -/
def IsBlanks (cs : List Char) : Prop :=
  ∀ c ∈ cs, isBlank c = true

instance : DecidablePred IsBlanks := fun cs =>
  List.decidableBAll (fun c => isBlank c = true) cs

/-- A text that neither begins nor ends with a blank. -/
structure IsTrimmed (cs : List Char) : Prop where
  head : ∀ c ∈ cs.head?, isBlank c = false
  last : ∀ c ∈ cs.getLast?, isBlank c = false

variable {before cs after : List Char}

/-- Blanks behind blanks are blanks. -/
theorem IsBlanks.append (h : IsBlanks before) (h' : IsBlanks after) : IsBlanks (before ++ after) :=
  List.forall_mem_append.2 ⟨h, h'⟩

/-- No characters at all are blanks. -/
theorem isBlanks_nil : IsBlanks [] :=
  List.forall_mem_nil _

/-- A text without blanks is trimmed. -/
theorem isTrimmed_of_forall (h : ∀ c ∈ cs, isBlank c = false) : IsTrimmed cs :=
  ⟨fun c hc => h c (List.mem_of_mem_head? hc), fun c hc => h c (List.mem_of_getLast? hc)⟩

/-- A trimmed text is not blank, unless there is nothing of it. -/
theorem IsTrimmed.not_isBlanks (h : IsTrimmed cs) (hne : cs ≠ []) : ¬IsBlanks cs := by
  intro hblanks
  obtain ⟨c, rest, rfl⟩ := List.exists_cons_of_ne_nil hne
  have hhead := hblanks c List.mem_cons_self
  rw [h.head c rfl] at hhead
  cases hhead

/-- A digit is no blank. -/
theorem isBlank_of_isDigit {c : Char} (h : c.isDigit = true) : isBlank c = false := by
  have hrange : 48 ≤ c.toNat ∧ c.toNat ≤ 57 := Char.isDigit_iff_toNat.1 h
  unfold isBlank
  simp only [Bool.or_eq_false_iff, Bool.and_eq_false_iff, decide_eq_false_iff_not]
  omega

/-- What is dropped while there are blanks is blanks. -/
theorem isBlanks_takeWhile (cs : List Char) : IsBlanks (cs.takeWhile isBlank) :=
  List.all_eq_true.1 List.all_takeWhile

/-- What is left begins with no blank. -/
theorem head_trimLeft (cs : List Char) : ∀ c ∈ (trimLeft cs).head?, isBlank c = false := by
  intro c hc
  have h := List.head?_dropWhile_not isBlank cs
  rw [show (cs.dropWhile isBlank).head? = some c from hc] at h
  exact h

/-- Where no blank stands in front, none is dropped. -/
theorem trimLeft_of_head (h : ∀ c ∈ cs.head?, isBlank c = false) : trimLeft cs = cs := by
  cases cs with
  | nil => rfl
  | cons c rest => exact List.dropWhile_cons_of_neg (by rw [h c rfl]; decide)

/-- Blanks in front are dropped. -/
theorem trimLeft_append (h : IsBlanks before) (cs : List Char) :
    trimLeft (before ++ cs) = trimLeft cs :=
  List.dropWhile_append_of_pos h

/-- Where no blank stands at the end, none is dropped. -/
theorem trimRight_of_last (h : ∀ c ∈ cs.getLast?, isBlank c = false) : trimRight cs = cs := by
  have hreverse : trimLeft cs.reverse = cs.reverse :=
    trimLeft_of_head fun c hc => h c (by rwa [List.head?_reverse] at hc)
  unfold trimRight
  rw [show cs.reverse.dropWhile isBlank = cs.reverse from hreverse, List.reverse_reverse]

/-- Blanks at the end are dropped. -/
theorem trimRight_append (h : IsBlanks after) (cs : List Char) :
    trimRight (cs ++ after) = trimRight cs := by
  unfold trimRight
  rw [List.reverse_append,
    List.dropWhile_append_of_pos fun c hc => h c (List.mem_reverse.1 hc)]

/-- Blanks around a trimmed text are all that is dropped. -/
theorem trim_append (hbefore : IsBlanks before) (h : IsTrimmed cs) (hafter : IsBlanks after) :
    trim (before ++ (cs ++ after)) = cs := by
  unfold trim
  rw [trimLeft_append hbefore]
  cases cs with
  | nil =>
    -- There is nothing but blanks.
    have hnone : trimLeft after = [] := by
      have := trimLeft_append hafter []
      rwa [List.append_nil] at this
    rw [List.nil_append, hnone]
    rfl
  | cons c rest =>
    have hleft : trimLeft (c :: rest ++ after) = c :: rest ++ after := trimLeft_of_head h.head
    rw [hleft, trimRight_append hafter, trimRight_of_last h.last]

/-- Dropping stops at a character that is no blank. -/
theorem dropWhile_append_cons {c : Char} (hc : isBlank c = false) (before after : List Char) :
    (before ++ c :: after).dropWhile isBlank = before.dropWhile isBlank ++ c :: after := by
  induction before with
  | nil => exact List.dropWhile_cons_of_neg (by rw [hc]; decide)
  | cons d rest ih =>
    rw [List.cons_append, List.dropWhile_cons, List.dropWhile_cons, ih]
    split <;> rfl

/-- Around a character that is no blank, either side is trimmed by itself. -/
theorem trim_append_cons {c : Char} (hc : isBlank c = false) (before after : List Char) :
    trim (before ++ c :: after) = trimLeft before ++ c :: trimRight after := by
  unfold trim trimLeft trimRight
  rw [dropWhile_append_cons hc, List.reverse_append, List.reverse_cons, List.append_assoc,
    List.singleton_append, dropWhile_append_cons hc, List.reverse_append, List.reverse_cons,
    List.reverse_reverse, List.append_assoc, List.singleton_append]

/-- A text is what trimming leaves of it, with blanks around. -/
theorem exists_eq_append_trim (cs : List Char) :
    ∃ before after, IsBlanks before ∧ IsBlanks after ∧ IsTrimmed (trim cs) ∧
      cs = before ++ (trim cs ++ after) := by
  have hleft : cs.takeWhile isBlank ++ trimLeft cs = cs := List.takeWhile_append_dropWhile
  generalize hrest : trimLeft cs = rest at hleft
  have hright : trimRight rest ++ (rest.reverse.takeWhile isBlank).reverse = rest := by
    unfold trimRight
    rw [← List.reverse_append, List.takeWhile_append_dropWhile, List.reverse_reverse]
  have htrim : trim cs = trimRight rest := congrArg trimRight hrest
  have hafter : IsBlanks (rest.reverse.takeWhile isBlank).reverse := fun c hc =>
    isBlanks_takeWhile rest.reverse c (List.mem_reverse.1 hc)
  refine ⟨_, _, isBlanks_takeWhile cs, hafter, ⟨fun c hc => ?_, fun c hc => ?_⟩, ?_⟩
  · -- What trimming leaves begins as what is left in front.
    refine head_trimLeft cs c ?_
    rw [hrest, ← hright, List.head?_append, ← htrim, Option.mem_def.1 hc]
    rfl
  · refine head_trimLeft rest.reverse c ?_
    rw [htrim, show trimRight rest = (trimLeft rest.reverse).reverse from rfl,
      List.getLast?_reverse] at hc
    exact hc
  · rw [htrim, hright, hleft]

/-- Blanks around a text do not count. -/
theorem trim_append_blanks (hbefore : IsBlanks before) (hafter : IsBlanks after) :
    trim (before ++ (cs ++ after)) = trim cs := by
  obtain ⟨before', after', hbefore', hafter', htrimmed, hcs⟩ := exists_eq_append_trim cs
  have hparts : before ++ (cs ++ after) =
      (before ++ before') ++ (trim cs ++ (after' ++ after)) := by
    conv_lhs => rw [hcs]
    simp only [List.append_assoc]
  rw [hparts, trim_append (hbefore.append hbefore') htrimmed (hafter'.append hafter)]

/-- Of blanks trimming leaves nothing, and of any other text it leaves something. -/
theorem trim_eq_nil_iff : trim cs = [] ↔ IsBlanks cs := by
  obtain ⟨before, after, hbefore, hafter, htrimmed, hcs⟩ := exists_eq_append_trim cs
  constructor
  · intro h
    rw [hcs, h]
    exact hbefore.append hafter
  · intro h
    by_contra hne
    refine htrimmed.not_isBlanks hne fun c hc => h c ?_
    rw [hcs]
    exact List.mem_append_right _ (List.mem_append_left _ hc)

/-- Trimming leaves a text that ends in a character which is no blank exactly where only blanks
stand behind that character. -/
theorem getLast?_trim_eq_some_iff {c : Char} (hc : isBlank c = false) :
    (trim cs).getLast? = some c ↔ ∃ stem blanks, cs = stem ++ c :: blanks ∧ IsBlanks blanks := by
  constructor
  · intro h
    obtain ⟨before, after, -, hafter, -, hcs⟩ := exists_eq_append_trim cs
    obtain ⟨stem, hstem⟩ := List.getLast?_eq_some_iff.1 h
    refine ⟨before ++ stem, after, ?_, hafter⟩
    rw [hstem] at hcs
    rw [hcs, List.append_assoc, List.append_assoc, List.singleton_append]
  · rintro ⟨stem, blanks, rfl, hblanks⟩
    have hright : trimRight blanks = [] := trimRight_append hblanks []
    rw [trim_append_cons hc, hright]
    exact List.getLast?_concat

end ChangeFeed.Text
