/-!
# Results that may be errors

When a step, or a map behind it, ends well, and what a list of steps that ends well comes to.
-/

namespace ChangeFeed

variable {ε α β : Type} {result : Except ε α} {b : β}

/-- Two steps in a row are well exactly when both are. -/
theorem bind_eq_ok_iff {f : α → Except ε β} :
    result >>= f = .ok b ↔ ∃ a, result = .ok a ∧ f a = .ok b := by
  cases result <;> simp [bind, Except.bind]

/-- A result is well behind a map exactly when it was well before it. -/
theorem map_eq_ok_iff {f : α → β} :
    result.map f = .ok b ↔ ∃ a, result = .ok a ∧ f a = b := by
  cases result <;> simp [Except.map]

/-- Where a step is well for all of a list, each element has its result and each result its
element. -/
theorem mem_of_mapM_eq_ok {f : α → Except ε β} {l : List α} {m : List β} (h : l.mapM f = .ok m) :
    (∀ a ∈ l, ∃ b ∈ m, f a = .ok b) ∧ ∀ b ∈ m, ∃ a ∈ l, f a = .ok b := by
  induction l generalizing m with
  | nil =>
    cases h
    exact ⟨List.forall_mem_nil _, List.forall_mem_nil _⟩
  | cons a rest ih =>
    rw [List.mapM_cons] at h
    obtain ⟨b, hb, h⟩ := bind_eq_ok_iff.1 h
    obtain ⟨m', hrest, h⟩ := bind_eq_ok_iff.1 h
    cases h
    obtain ⟨hleft, hright⟩ := ih hrest
    refine ⟨List.forall_mem_cons.2 ⟨⟨b, List.mem_cons_self, hb⟩, fun x hx => ?_⟩,
      List.forall_mem_cons.2 ⟨⟨a, List.mem_cons_self, hb⟩, fun y hy => ?_⟩⟩
    · obtain ⟨y, hy, hxy⟩ := hleft x hx
      exact ⟨y, List.mem_cons_of_mem _ hy, hxy⟩
    · obtain ⟨x, hx, hxy⟩ := hright y hy
      exact ⟨x, List.mem_cons_of_mem _ hx, hxy⟩

end ChangeFeed
