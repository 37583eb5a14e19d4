import ChangeFeed.Json.Canonical
import ChangeFeed.Proofs.Json.Grammar
import ChangeFeed.Proofs.Text.Utf8

/-!
# Canonical values

`Json.Contains` says what a value is made of. A value is canonical if every object in it has each of
its keys once, in the order of their bytes (`Json.IsCanonical`). The canonical form of any value is
canonical (`Json.isCanonical_canonical`), and a canonical value is its own canonical form
(`Json.canonical_eq_self`). Nothing new gets into a value by that: neither a float
(`Json.IsFloatFree.canonical`) nor another level of nesting (`Json.nesting_canonical_le`).
-/

namespace ChangeFeed.Json

open Text

/-! ## Parts of a value -/

/-- Whatever holds of a value as soon as it holds of its items or members holds of every value. -/
@[elab_as_elim]
theorem inductionOn {motive : Json → Prop} (v : Json) (null : motive .null)
    (bool : ∀ b, motive (.bool b)) (number : ∀ n, motive (.number n))
    (string : ∀ s, motive (.string s))
    (array : ∀ items, (∀ v ∈ items, motive v) → motive (.array items))
    (object : ∀ members, (∀ m ∈ members, motive m.2) → motive (.object members)) : motive v :=
  @Json.rec motive (fun items => ∀ v ∈ items, motive v) (fun members => ∀ m ∈ members, motive m.2)
    (fun m => motive m.2) null bool number string array object (List.forall_mem_nil _)
    (fun _ _ hv hrest => List.forall_mem_cons.2 ⟨hv, hrest⟩) (List.forall_mem_nil _)
    (fun _ _ hm hrest => List.forall_mem_cons.2 ⟨hm, hrest⟩) (fun _ _ hv => hv) v

/-- A value is made of itself and of what its items or members are made of. -/
inductive Contains : Json → Json → Prop
  | itself (v) : Contains v v
  | item {items v part} (hv : v ∈ items) (h : Contains v part) : Contains (.array items) part
  | member {members m part} (hm : m ∈ members) (h : Contains m.2 part) :
      Contains (.object members) part

/-- Every object in a value has each of its keys once, in the order of their bytes. -/
def IsCanonical (v : Json) : Prop :=
  ∀ members, v.Contains (.object members) →
    members.Pairwise fun m m' => toUtf8 m.1.toList < toUtf8 m'.1.toList

/-- The items of a canonical array are canonical. -/
theorem IsCanonical.item {items : List Json} (h : IsCanonical (.array items)) {v : Json}
    (hv : v ∈ items) : v.IsCanonical :=
  fun members hmembers => h members (.item hv hmembers)

/-- The members of a canonical object have canonical values. -/
theorem IsCanonical.member {members : List (String × Json)} (h : IsCanonical (.object members))
    {m : String × Json} (hm : m ∈ members) : m.2.IsCanonical :=
  fun members' hmembers => h members' (.member hm hmembers)

/-- There is no float in a value. -/
def IsFloatFree (v : Json) : Prop :=
  ∀ x, ¬v.Contains (.number (.float x))

/-- A whole number has no float in it. -/
theorem isFloatFree_whole (value : Int)
    (range : -9223372036854775808 ≤ value ∧ value < 18446744073709551616) :
    IsFloatFree (.number (.whole value range)) := by
  intro x hx
  cases hx

/-- An array has no float in it just if none of its items has. -/
theorem isFloatFree_array_iff {items : List Json} :
    IsFloatFree (.array items) ↔ ∀ v ∈ items, v.IsFloatFree := by
  refine ⟨fun h v hv x hx => h x (.item hv hx), fun h x hx => ?_⟩
  cases hx with
  | item hv hx => exact h _ hv x hx

/-- An object has no float in it just if no value of its members has. -/
theorem isFloatFree_object_iff {members : List (String × Json)} :
    IsFloatFree (.object members) ↔ ∀ m ∈ members, m.2.IsFloatFree := by
  refine ⟨fun h m hm x hx => h x (.member hm hx), fun h x hx => ?_⟩
  cases hx with
  | member hm hx => exact h _ hm x hx

/-- The order of bytes is that of strings. -/
theorem pairwise_keys_iff {members : List (String × Json)} :
    (members.Pairwise fun m m' => toUtf8 m.1.toList < toUtf8 m'.1.toList) ↔
      members.Pairwise fun m m' => m.1 < m'.1 :=
  ⟨List.Pairwise.imp toUtf8_lt_toUtf8_iff.1, List.Pairwise.imp toUtf8_lt_toUtf8_iff.2⟩

/-! ## Canonical members -/

section

variable {key : String} {value : Json} {members : List (String × Json)} {m : String × Json}

/-- What is among members after one was inserted is that one or was there before. -/
theorem mem_insertAbsent (h : m ∈ insertAbsent key value members) :
    m = (key, value) ∨ m ∈ members := by
  induction members with
  | nil => exact .inl (List.mem_singleton.1 h)
  | cons n rest ih =>
    obtain ⟨k, v⟩ := n
    rw [insertAbsent] at h
    split at h
    · exact .inr h
    split at h
    · exact List.mem_cons.1 h
    · rcases List.mem_cons.1 h with rfl | hrest
      · exact .inr List.mem_cons_self
      · exact (ih hrest).imp_right (List.mem_cons_of_mem _)

/-- Members in order stay in order. -/
theorem pairwise_insertAbsent (h : members.Pairwise fun m m' => m.1 < m'.1) :
    (insertAbsent key value members).Pairwise fun m m' => m.1 < m'.1 := by
  induction members with
  | nil => exact List.pairwise_singleton _ _
  | cons n rest ih =>
    obtain ⟨k, v⟩ := n
    obtain ⟨hfirst, hrest⟩ := List.pairwise_cons.1 h
    rw [insertAbsent]
    split
    · exact h
    next hne =>
    split
    · next hlt =>
      refine List.pairwise_cons.2 ⟨List.forall_mem_cons.2 ⟨hlt, fun m hm => ?_⟩, h⟩
      exact String.lt_trans hlt (hfirst m hm)
    · next hge =>
      have hlt : k < key := Decidable.by_contra fun hnot =>
        hne (String.le_antisymm (String.not_lt.1 hnot) (String.not_lt.1 hge))
      refine List.pairwise_cons.2 ⟨fun m hm => ?_, ih hrest⟩
      rcases mem_insertAbsent hm with rfl | hm
      · exact hlt
      · exact hfirst m hm

/-- A key below all others is put in front. -/
theorem insertAbsent_of_lt (h : ∀ m ∈ members, key < m.1) :
    insertAbsent key value members = (key, value) :: members := by
  cases members with
  | nil => rfl
  | cons n rest =>
    have hlt : key < n.1 := h n List.mem_cons_self
    rw [insertAbsent, if_neg (String.ne_of_lt hlt), if_pos hlt]

/-- The items of a canonical array are the canonical forms of the items. -/
theorem canonicalItems_eq_map (items : List Json) : canonicalItems items = items.map canonical := by
  induction items with
  | nil => rfl
  | cons v rest ih => rw [canonicalItems, ih, List.map_cons]

/-- Canonical members come from the members. -/
theorem exists_of_mem_canonicalMembers (h : m ∈ canonicalMembers members) :
    ∃ n ∈ members, m = (n.1, n.2.canonical) := by
  induction members with
  | nil => cases h
  | cons n rest ih =>
    obtain ⟨k, v⟩ := n
    rw [canonicalMembers] at h
    rcases mem_insertAbsent h with rfl | hrest
    · exact ⟨(k, v), List.mem_cons_self, rfl⟩
    · obtain ⟨n, hn, hm⟩ := ih hrest
      exact ⟨n, List.mem_cons_of_mem _ hn, hm⟩

/-- The members of a canonical object have ascending keys. -/
theorem pairwise_canonicalMembers (members : List (String × Json)) :
    (canonicalMembers members).Pairwise fun m m' => m.1 < m'.1 := by
  induction members with
  | nil => exact List.Pairwise.nil
  | cons n rest ih => exact pairwise_insertAbsent ih

/-- Members with ascending keys and canonical values stay as they are. -/
theorem canonicalMembers_eq_self (hkeys : members.Pairwise fun m m' => m.1 < m'.1)
    (hvalues : ∀ m ∈ members, m.2.canonical = m.2) : canonicalMembers members = members := by
  induction members with
  | nil => rfl
  | cons n rest ih =>
    obtain ⟨hfirst, hrest⟩ := List.pairwise_cons.1 hkeys
    obtain ⟨hvalue, hvalues⟩ := List.forall_mem_cons.1 hvalues
    rw [canonicalMembers, ih hrest hvalues, hvalue, insertAbsent_of_lt hfirst]

end

/-! ## Canonical values -/

/-- The canonical form of a value is canonical. -/
theorem isCanonical_canonical (v : Json) : v.canonical.IsCanonical := by
  induction v using inductionOn with
  | null => intro members h; cases h
  | bool b => intro members h; cases h
  | number n => intro members h; cases h
  | string s => intro members h; cases h
  | array items ih =>
    intro members h
    cases h with
    | item hv h =>
      rw [canonicalItems_eq_map] at hv
      obtain ⟨u, hu, rfl⟩ := List.mem_map.1 hv
      exact ih u hu members h
  | object own ih =>
    intro members h
    cases h with
    | itself => exact pairwise_keys_iff.2 (pairwise_canonicalMembers own)
    | member hm h =>
      obtain ⟨n, hn, rfl⟩ := exists_of_mem_canonicalMembers hm
      exact ih n hn members h

/-- A canonical value is its own canonical form. -/
theorem canonical_eq_self {v : Json} (h : v.IsCanonical) : v.canonical = v := by
  induction v using inductionOn with
  | null => rfl
  | bool b => rfl
  | number n => rfl
  | string s => rfl
  | array items ih =>
    have hitems : items.map canonical = items := by
      refine (List.map_congr_left fun v hv => ?_).trans (List.map_id items)
      exact ih v hv (h.item hv)
    rw [canonical, canonicalItems_eq_map, hitems]
  | object members ih =>
    have hkeys := pairwise_keys_iff.1 (h members (.itself _))
    rw [canonical, canonicalMembers_eq_self hkeys fun m hm => ih m hm (h.member hm)]

/-- There is no float in the canonical form of a value that has none. -/
theorem IsFloatFree.canonical {v : Json} (h : v.IsFloatFree) : v.canonical.IsFloatFree := by
  induction v using inductionOn with
  | null => exact h
  | bool b => exact h
  | number n => exact h
  | string s => exact h
  | array items ih =>
    refine isFloatFree_array_iff.2 fun v hv => ?_
    rw [canonicalItems_eq_map] at hv
    obtain ⟨u, hu, rfl⟩ := List.mem_map.1 hv
    exact ih u hu (isFloatFree_array_iff.1 h u hu)
  | object members ih =>
    refine isFloatFree_object_iff.2 fun m hm => ?_
    obtain ⟨n, hn, rfl⟩ := exists_of_mem_canonicalMembers hm
    exact ih n hn (isFloatFree_object_iff.1 h n hn)

/-- The canonical form is not nested deeper. -/
theorem nesting_canonical_le (v : Json) : v.canonical.nesting ≤ v.nesting := by
  induction v using inductionOn with
  | null => exact Nat.le_refl 0
  | bool b => exact Nat.le_refl 0
  | number n => exact Nat.le_refl 0
  | string s => exact Nat.le_refl 0
  | array items ih =>
    refine Nat.succ_le_succ (nestingItems_le_iff.2 fun v hv => ?_)
    rw [canonicalItems_eq_map] at hv
    obtain ⟨u, hu, rfl⟩ := List.mem_map.1 hv
    exact Nat.le_trans (ih u hu) (nestingItems_le_iff.1 (Nat.le_refl _) u hu)
  | object members ih =>
    refine Nat.succ_le_succ (nestingMembers_le_iff.2 fun m hm => ?_)
    obtain ⟨n, hn, rfl⟩ := exists_of_mem_canonicalMembers hm
    exact Nat.le_trans (ih n hn) (nestingMembers_le_iff.1 (Nat.le_refl _) n hn)

end ChangeFeed.Json
