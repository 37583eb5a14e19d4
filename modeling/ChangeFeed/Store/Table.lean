/-!
# Tables

A finite map with 64-bit integer keys, kept as a list of entries in the order of their keys.
`get?_insert` and `get?_erase` say what the two changes do to every key, and `ext` that a table is
nothing but what it holds.
-/

namespace ChangeFeed

/-- A finite map from keys to values. -/
structure Table (α : Type) where
  entries : List (Int64 × α)
  /-- The keys are in ascending order, each once. -/
  sorted : entries.Pairwise fun a b => a.1 < b.1

namespace Table

variable {α : Type}

/-- The value of a key in a list of entries. -/
def find? (k : Int64) : List (Int64 × α) → Option α
  | [] => none
  | e :: rest => if e.1 = k then some e.2 else find? k rest

/-- A list of entries in order with a key's value set. -/
def put (k : Int64) (v : α) : List (Int64 × α) → List (Int64 × α)
  | [] => [(k, v)]
  | e :: rest =>
    if k < e.1 then (k, v) :: e :: rest
    else if e.1 = k then (k, v) :: rest
    else e :: put k v rest

/-- Setting a value adds no key but the one that is set. -/
theorem key_of_mem_put {k : Int64} {v : α} {l : List (Int64 × α)} {e : Int64 × α}
    (h : e ∈ put k v l) : e.1 = k ∨ e ∈ l := by
  induction l with
  | nil => simp_all [put]
  | cons a rest ih =>
    unfold put at h
    split at h
    · rcases List.mem_cons.1 h with rfl | h
      · exact .inl rfl
      · exact .inr h
    · split at h
      · rcases List.mem_cons.1 h with rfl | h
        · exact .inl rfl
        · exact .inr (List.mem_cons_of_mem _ h)
      · rcases List.mem_cons.1 h with rfl | h
        · exact .inr List.mem_cons_self
        · exact (ih h).imp_right (List.mem_cons_of_mem _)

/-- Of two different keys one is below the other. -/
theorem lt_of_not_lt_of_ne {a b : Int64} (h : ¬ a < b) (hne : b ≠ a) : b < a := by
  have hne : b.toInt ≠ a.toInt := fun h => hne (Int64.toInt_inj.1 h)
  simp only [Int64.lt_iff_toInt_lt] at h ⊢
  omega

/-- Setting a value keeps the order of the keys. -/
theorem pairwise_put {k : Int64} {v : α} {l : List (Int64 × α)}
    (h : l.Pairwise fun a b => a.1 < b.1) : (put k v l).Pairwise fun a b => a.1 < b.1 := by
  induction l with
  | nil => exact List.pairwise_singleton ..
  | cons a rest ih =>
    obtain ⟨ha, hr⟩ := List.pairwise_cons.1 h
    unfold put
    split
    · rename_i hk
      refine List.pairwise_cons.2 ⟨fun b hb => ?_, h⟩
      rcases List.mem_cons.1 hb with rfl | hb
      · exact hk
      · exact Int64.lt_trans hk (ha b hb)
    · split
      · rename_i hk
        exact List.pairwise_cons.2 ⟨fun b hb => hk ▸ ha b hb, hr⟩
      · rename_i hlt hne
        refine List.pairwise_cons.2 ⟨fun b hb => ?_, ih hr⟩
        rcases key_of_mem_put hb with hb | hb
        · exact hb ▸ lt_of_not_lt_of_ne hlt hne
        · exact ha b hb

/-- A list of entries without a key. -/
def remove (k : Int64) (l : List (Int64 × α)) : List (Int64 × α) :=
  l.filter fun e => e.1 ≠ k

/-- A key that was put is found with its value, and the others are found as before. -/
theorem find?_put (k k' : Int64) (v : α) (l : List (Int64 × α)) :
    find? k' (put k v l) = if k = k' then some v else find? k' l := by
  induction l with
  | nil => simp [put, find?]
  | cons a rest ih =>
    unfold put
    split
    · simp [find?]
    · split
      · rename_i h
        subst h
        by_cases h : a.1 = k' <;> simp [find?, h]
      · rename_i hne
        by_cases h : a.1 = k'
        · have : k ≠ k' := fun hk => hne (hk ▸ h)
          simp [find?, h, this]
        · simp only [find?, if_neg h, ih]

/-- A key that was removed is not found, and the others are found as before. -/
theorem find?_remove (k k' : Int64) (l : List (Int64 × α)) :
    find? k' (remove k l) = if k = k' then none else find? k' l := by
  induction l with
  | nil => simp [remove, find?]
  | cons a rest ih =>
    by_cases ha : a.1 = k
    · have hf : remove k (a :: rest) = remove k rest := by simp [remove, ha]
      rw [hf, ih]
      by_cases h : k = k'
      · simp [h]
      · have : a.1 ≠ k' := ha ▸ h
        simp [h, find?, this]
    · have hf : remove k (a :: rest) = a :: remove k rest := by simp [remove, ha]
      rw [hf]
      by_cases h : a.1 = k'
      · have : k ≠ k' := fun hk => ha (h.trans hk.symm)
        simp [find?, h, this]
      · simp only [find?, if_neg h, ih]

/-- The table that holds nothing. -/
def empty : Table α :=
  ⟨[], List.Pairwise.nil⟩

/-- The value of a key. -/
def get? (t : Table α) (k : Int64) : Option α :=
  find? k t.entries

/-- Sets the value of a key. -/
def insert (t : Table α) (k : Int64) (v : α) : Table α :=
  ⟨put k v t.entries, pairwise_put t.sorted⟩

/-- Takes a key out. -/
def erase (t : Table α) (k : Int64) : Table α :=
  ⟨remove k t.entries, t.sorted.filter _⟩

/-- The number of keys. -/
def size (t : Table α) : Nat :=
  t.entries.length

/-- The values in the order of their keys. -/
def values (t : Table α) : List α :=
  t.entries.map (·.2)

/-- An empty table has no keys. -/
@[simp] theorem get?_empty (k : Int64) : (empty : Table α).get? k = none :=
  rfl

/-- The value that is set is found, and every other key keeps its own. -/
@[simp] theorem get?_insert (t : Table α) (k k' : Int64) (v : α) :
    (t.insert k v).get? k' = if k = k' then some v else t.get? k' :=
  find?_put k k' v t.entries

/-- The key that is taken out is gone, and every other one keeps its value. -/
@[simp] theorem get?_erase (t : Table α) (k k' : Int64) :
    (t.erase k).get? k' = if k = k' then none else t.get? k' :=
  find?_remove k k' t.entries

/-- A key is found exactly when it has an entry. -/
theorem get?_eq_some_iff (t : Table α) {k : Int64} {v : α} :
    t.get? k = some v ↔ (k, v) ∈ t.entries := by
  obtain ⟨l, h⟩ := t
  unfold get?
  simp only
  induction l with
  | nil => simp [find?]
  | cons a rest ih =>
    obtain ⟨ha, hr⟩ := List.pairwise_cons.1 h
    by_cases hk : a.1 = k
    · have hnot : (k, v) ∉ rest := fun hm => by
        have := ha _ hm
        rw [hk] at this
        exact Int64.lt_irrefl this
      constructor
      · intro hv
        simp only [find?, hk, if_true, Option.some.injEq] at hv
        exact List.mem_cons.2 (.inl (by rw [← hv, ← hk]))
      · intro hm
        rcases List.mem_cons.1 hm with rfl | hm
        · simp [find?]
        · exact absurd hm hnot
    · have : (k, v) ≠ a := fun he => hk (by rw [← he])
      simp [find?, hk, this, ih hr]

/-- Two lists in order with the same entries are the same. -/
theorem eq_of_mem_iff {l m : List (Int64 × α)} (hl : l.Pairwise fun a b => a.1 < b.1)
    (hm : m.Pairwise fun a b => a.1 < b.1) (h : ∀ e, e ∈ l ↔ e ∈ m) : l = m := by
  induction l generalizing m with
  | nil =>
    cases m with
    | nil => rfl
    | cons b _ => exact absurd ((h b).2 List.mem_cons_self) List.not_mem_nil
  | cons a rest ih =>
    cases m with
    | nil => exact absurd ((h a).1 List.mem_cons_self) List.not_mem_nil
    | cons b rest' =>
      obtain ⟨ha, hr⟩ := List.pairwise_cons.1 hl
      obtain ⟨hb, hr'⟩ := List.pairwise_cons.1 hm
      -- The first of either list is the one with the least key.
      have hab : a = b := by
        rcases List.mem_cons.1 ((h a).1 List.mem_cons_self) with h1 | h1
        · exact h1
        · rcases List.mem_cons.1 ((h b).2 List.mem_cons_self) with h2 | h2
          · exact h2.symm
          · exact absurd (Int64.lt_trans (ha b h2) (hb a h1)) Int64.lt_irrefl
      subst hab
      refine congrArg (a :: ·) (ih hr hr' fun e => ⟨fun he => ?_, fun he => ?_⟩)
      · rcases List.mem_cons.1 ((h e).1 (List.mem_cons_of_mem _ he)) with rfl | h1
        · exact absurd (ha e he) Int64.lt_irrefl
        · exact h1
      · rcases List.mem_cons.1 ((h e).2 (List.mem_cons_of_mem _ he)) with rfl | h1
        · exact absurd (hb e he) Int64.lt_irrefl
        · exact h1

/-- Two tables that give every key the same value are the same. -/
theorem ext {s t : Table α} (h : ∀ k, s.get? k = t.get? k) : s = t := by
  have hmem : ∀ e, e ∈ s.entries ↔ e ∈ t.entries := fun e => by
    rw [← get?_eq_some_iff, ← get?_eq_some_iff, h]
  have : s.entries = t.entries := eq_of_mem_iff s.sorted t.sorted hmem
  cases s
  cases t
  simp_all

end Table

end ChangeFeed
