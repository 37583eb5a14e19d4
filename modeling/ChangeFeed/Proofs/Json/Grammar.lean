import ChangeFeed.Json.Reader
import ChangeFeed.Proofs.Json.Token

/-!
# The texts of a JSON value

`Json.Begins` says which bytes begin with the text of a value, and what follows. It knows nothing of
how deep a reader can go. A text is a document of a value if nothing but blanks surrounds it
(`Json.IsDocument`). The reader reads a document as its value exactly if the value is not nested too
deep (`Json.parseBytes_eq_ok_iff`): its fuel always lasts, since no more than three steps are taken
for each byte.
-/

namespace ChangeFeed.Json

/-! ## Blanks -/

/-- No blanks are left behind skipped ones. -/
theorem skipSpace_skipSpace (bytes : List UInt8) :
    skipSpace (skipSpace bytes) = skipSpace bytes := by
  unfold skipSpace
  induction bytes with
  | nil => rfl
  | cons b bytes ih =>
    rw [List.dropWhile_cons]
    split
    · exact ih
    · next hb => rw [List.dropWhile_cons, if_neg hb]

/-- Dropping blanks leaves no more bytes than there were. -/
theorem length_skipSpace (bytes : List UInt8) : (skipSpace bytes).length ≤ bytes.length :=
  (List.dropWhile_suffix isSpace).length_le

/-! ## Nesting -/

mutual

/-- How deep containers are nested in a value. -/
def nesting : Json → Nat
  | .array items => nestingItems items + 1
  | .object members => nestingMembers members + 1
  | _ => 0

/-- How deep containers are nested in items. -/
def nestingItems : List Json → Nat
  | [] => 0
  | v :: rest => max (nesting v) (nestingItems rest)

/-- How deep containers are nested in members. -/
def nestingMembers : List (String × Json) → Nat
  | [] => 0
  | (_, v) :: rest => max (nesting v) (nestingMembers rest)

end

/-- How deep items are nested is bounded by how deep each of them is. -/
theorem nestingItems_le_iff {items : List Json} {depth : Nat} :
    nestingItems items ≤ depth ↔ ∀ v ∈ items, v.nesting ≤ depth := by
  induction items with
  | nil => exact ⟨fun _ => List.forall_mem_nil _, fun _ => Nat.zero_le depth⟩
  | cons v items ih => rw [nestingItems, Nat.max_le, List.forall_mem_cons, ih]

/-- How deep members are nested is bounded by how deep each of their values is. -/
theorem nestingMembers_le_iff {members : List (String × Json)} {depth : Nat} :
    nestingMembers members ≤ depth ↔ ∀ m ∈ members, m.2.nesting ≤ depth := by
  induction members with
  | nil => exact ⟨fun _ => List.forall_mem_nil _, fun _ => Nat.zero_le depth⟩
  | cons m members ih => rw [nestingMembers, Nat.max_le, List.forall_mem_cons, ih]

/-! ## The grammar -/

/-- A part of a text. Items and members go up to the closing bracket of their container; `first`
says that none stands before them. -/
inductive Phrase where
  | value (v : Json)
  | items (first : Bool) (items : List Json)
  | item (items : List Json)
  | members (first : Bool) (members : List (String × Json))
  | member (members : List (String × Json))

/-- Bytes that begin with the text of a part, without a blank in front, and what follows. A member
begins behind the opening quote of its key. -/
inductive Begins : Phrase → List UInt8 → List UInt8 → Prop
  | nullWord {rest} : Begins (.value .null) (byte 'n' :: (['u', 'l', 'l'].map byte ++ rest)) rest
  | trueWord {rest} :
      Begins (.value (.bool true)) (byte 't' :: (['r', 'u', 'e'].map byte ++ rest)) rest
  | falseWord {rest} :
      Begins (.value (.bool false)) (byte 'f' :: (['a', 'l', 's', 'e'].map byte ++ rest)) rest
  | negative {bytes n rest} (h : readNumber true bytes = .ok (n, rest)) :
      Begins (.value (.number n)) (byte '-' :: bytes) rest
  | number {bytes n rest} (h : readNumber false bytes = .ok (n, rest)) :
      Begins (.value (.number n)) bytes rest
  | string {bytes s rest} (h : readString bytes = .ok (s, rest)) :
      Begins (.value (.string s)) (byte '"' :: bytes) rest
  | array {bytes items rest} (h : Begins (.items true items) (skipSpace bytes) rest) :
      Begins (.value (.array items)) (byte '[' :: bytes) rest
  | object {bytes members rest} (h : Begins (.members true members) (skipSpace bytes) rest) :
      Begins (.value (.object members)) (byte '\x7b' :: bytes) rest
  | noItem {first rest} : Begins (.items first []) (byte ']' :: rest) rest
  | firstItem {bytes items rest} (h : Begins (.item items) bytes rest) :
      Begins (.items true items) bytes rest
  | nextItem {bytes items rest} (h : Begins (.item items) (skipSpace bytes) rest) :
      Begins (.items false items) (byte ',' :: bytes) rest
  | item {bytes v behind items rest} (hv : Begins (.value v) bytes behind)
      (hitems : Begins (.items false items) (skipSpace behind) rest) :
      Begins (.item (v :: items)) bytes rest
  | noMember {first rest} : Begins (.members first []) (byte '\x7d' :: rest) rest
  | firstMember {bytes members rest} (h : Begins (.member members) bytes rest) :
      Begins (.members true members) (byte '"' :: bytes) rest
  | nextMember {bytes key members rest} (hquote : skipSpace bytes = byte '"' :: key)
      (h : Begins (.member members) key rest) :
      Begins (.members false members) (byte ',' :: bytes) rest
  | member {bytes key colon value v behind members rest}
      (hkey : readString bytes = .ok (key, colon)) (hcolon : skipSpace colon = byte ':' :: value)
      (hv : Begins (.value v) (skipSpace value) behind)
      (hmembers : Begins (.members false members) (skipSpace behind) rest) :
      Begins (.member ((key, v) :: members)) bytes rest

/-- A text that is a value, with nothing but blanks around it. -/
def IsDocument (bytes : List UInt8) (v : Json) : Prop :=
  ∃ rest, Begins (.value v) (skipSpace bytes) rest ∧ skipSpace rest = []

namespace Phrase

/-- How deep containers are nested in a part. -/
def nesting : Phrase → Nat
  | .value v => v.nesting
  | .items _ vs => nestingItems vs
  | .item vs => nestingItems vs
  | .members _ ms => nestingMembers ms
  | .member ms => nestingMembers ms

/-- Whether the bytes are read as a part. -/
def IsRead (fuel depth : Nat) (bytes rest : List UInt8) : Phrase → Prop
  | .value v => readValue fuel depth bytes = .ok (v, rest)
  | .items first vs => readItems fuel depth first bytes = .ok (vs, rest)
  | .item vs => readItem fuel depth bytes = .ok (vs, rest)
  | .members first ms => readMembers fuel depth first bytes = .ok (ms, rest)
  | .member ms => readMember fuel depth bytes = .ok (ms, rest)

/-- The fuel that is put by for a part: reading one item or member begins with one step less. -/
def reserve : Phrase → Nat
  | .item _ => 1
  | .member _ => 1
  | _ => 0

end Phrase

/-- Every part takes up bytes. -/
theorem Begins.length_lt {phrase : Phrase} {bytes rest : List UInt8}
    (h : Begins phrase bytes rest) : rest.length < bytes.length := by
  induction h with
  | nullWord => simp only [List.length_cons, List.length_append]; omega
  | trueWord => simp only [List.length_cons, List.length_append]; omega
  | falseWord => simp only [List.length_cons, List.length_append]; omega
  | negative h => exact Nat.lt_succ_of_lt (length_readNumber h)
  | number h => exact length_readNumber h
  | string h => exact Nat.lt_succ_of_lt (length_readString h)
  | array _ ih => exact Nat.lt_succ_of_lt (Nat.lt_of_lt_of_le ih (length_skipSpace _))
  | object _ ih => exact Nat.lt_succ_of_lt (Nat.lt_of_lt_of_le ih (length_skipSpace _))
  | noItem => exact Nat.lt_succ_self _
  | firstItem _ ih => exact ih
  | nextItem _ ih => exact Nat.lt_succ_of_lt (Nat.lt_of_lt_of_le ih (length_skipSpace _))
  | @item bytes v behind items rest _ _ ihv ihitems =>
    have := length_skipSpace behind
    omega
  | noMember => exact Nat.lt_succ_self _
  | firstMember _ ih => exact Nat.lt_succ_of_lt ih
  | @nextMember bytes key members rest hquote _ ih =>
    have := length_skipSpace bytes
    rw [hquote] at this
    simp only [List.length_cons] at this ⊢
    omega
  | @member bytes key colon value v behind members rest hkey hcolon _ _ ihv ihmembers =>
    have hstring := length_readString hkey
    have hspace := length_skipSpace colon
    have := length_skipSpace value
    have := length_skipSpace behind
    rw [hcolon, List.length_cons] at hspace
    omega

/-! ## What is a text is read -/

section

variable {fuel depth : Nat} {bytes rest : List UInt8} {b : UInt8}

/-- A byte that is no blank is not skipped. -/
theorem skipSpace_cons (hb : isSpace b = false) (bytes : List UInt8) :
    skipSpace (b :: bytes) = b :: bytes :=
  List.dropWhile_cons_of_neg (by rw [hb]; exact Bool.false_ne_true)

/-- Blanks in front of a value are skipped. -/
theorem readValue_skipSpace (fuel depth : Nat) (bytes : List UInt8) :
    readValue fuel depth (skipSpace bytes) = readValue fuel depth bytes := by
  cases fuel with
  | zero => rfl
  | succ fuel => rw [readValue, readValue, skipSpace_skipSpace]

/-- Blanks in front of items are skipped. -/
theorem readItems_skipSpace (fuel depth : Nat) (first : Bool) (bytes : List UInt8) :
    readItems fuel depth first (skipSpace bytes) = readItems fuel depth first bytes := by
  cases fuel with
  | zero => rfl
  | succ fuel => rw [readItems, readItems, skipSpace_skipSpace]

/-- Blanks in front of members are skipped. -/
theorem readMembers_skipSpace (fuel depth : Nat) (first : Bool) (bytes : List UInt8) :
    readMembers fuel depth first (skipSpace bytes) = readMembers fuel depth first bytes := by
  cases fuel with
  | zero => rfl
  | succ fuel => rw [readMembers, readMembers, skipSpace_skipSpace]

/-- A number begins with a digit. -/
theorem head_of_readNumber {n : Number} {negative : Bool}
    (h : readNumber negative bytes = .ok (n, rest)) :
    ∃ b behind, bytes = b :: behind ∧ isDigit b = true := by
  cases bytes with
  | nil => cases h
  | cons b behind =>
    refine ⟨b, behind, rfl, ?_⟩
    unfold readNumber at h
    dsimp only at h
    split at h
    · next hzero =>
      rw [hzero]
      rfl
    · split at h
      · assumption
      · cases h

/-- A digit is none of the other bytes that a text has. -/
theorem ne_of_isDigit (hb : isDigit b = true) {c : Char} (hc : isDigit (byte c) = false) :
    b ≠ byte c := by
  rintro rfl
  rw [hb] at hc
  cases hc

/-- A digit is no blank. -/
theorem not_isSpace_of_isDigit (hb : isDigit b = true) : isSpace b = false := by
  have hlow : byte '0' ≤ b := by
    unfold isDigit at hb
    exact of_decide_eq_true (Bool.and_eq_true_iff.1 hb).1
  cases hspace : isSpace b with
  | false => rfl
  | true =>
    simp only [isSpace, Bool.or_eq_true, decide_eq_true_eq] at hspace
    rcases hspace with ((rfl | rfl) | rfl) | rfl <;> exact absurd hlow (by decide)

/-- A digit begins a number. -/
theorem readValue_digit (hb : isDigit b = true) :
    readValue (fuel + 1) depth (b :: bytes) =
      (readNumber false (b :: bytes)).map fun (n, rest) => (.number n, rest) := by
  rw [readValue, skipSpace_cons (not_isSpace_of_isDigit hb)]
  dsimp only
  rw [if_neg (ne_of_isDigit hb rfl), if_neg (ne_of_isDigit hb rfl), if_neg (ne_of_isDigit hb rfl),
    if_neg (ne_of_isDigit hb rfl), if_pos hb]

/-! One step of reading, for each way to begin. -/

/-- An `n` begins the null value. -/
theorem readValue_null : readValue (fuel + 1) depth (byte 'n' :: bytes) =
    (readWord ['u', 'l', 'l'] bytes).map fun rest => (.null, rest) :=
  rfl

/-- A `t` begins the truth value true. -/
theorem readValue_true : readValue (fuel + 1) depth (byte 't' :: bytes) =
    (readWord ['r', 'u', 'e'] bytes).map fun rest => (.bool true, rest) :=
  rfl

/-- An `f` begins the truth value false. -/
theorem readValue_false : readValue (fuel + 1) depth (byte 'f' :: bytes) =
    (readWord ['a', 'l', 's', 'e'] bytes).map fun rest => (.bool false, rest) :=
  rfl

/-- A minus sign begins a negative number. -/
theorem readValue_negative : readValue (fuel + 1) depth (byte '-' :: bytes) =
    (readNumber true bytes).map fun (n, rest) => (.number n, rest) :=
  rfl

/-- A quotation mark begins a string. -/
theorem readValue_string : readValue (fuel + 1) depth (byte '"' :: bytes) =
    (readString bytes).map fun (s, rest) => (.string s, rest) :=
  rfl

/-- A bracket begins an array, if there is room for one more level. -/
theorem readValue_array : readValue (fuel + 1) (depth + 1) (byte '[' :: bytes) =
    (readItems fuel depth true bytes).map fun (items, rest) => (.array items, rest) :=
  rfl

/-- A brace begins an object, if there is room for one more level. -/
theorem readValue_object : readValue (fuel + 1) (depth + 1) (byte '\x7b' :: bytes) =
    (readMembers fuel depth true bytes).map fun (members, rest) => (.object members, rest) :=
  rfl

/-- The closing bracket ends the items of an array. -/
theorem readItems_close {first : Bool} :
    readItems (fuel + 1) depth first (byte ']' :: bytes) = .ok ([], bytes) :=
  rfl

/-- The first item of an array stands behind no comma. -/
theorem readItems_first (hspace : isSpace b = false) (hclose : b ≠ byte ']') :
    readItems (fuel + 1) depth true (b :: bytes) = readItem fuel depth (b :: bytes) := by
  rw [readItems, skipSpace_cons hspace]
  dsimp only
  rw [if_neg hclose, if_pos rfl]

/-- Every other item stands behind a comma, which the closing bracket must not follow. -/
theorem readItems_next (hbytes : skipSpace bytes = b :: rest) (hclose : b ≠ byte ']') :
    readItems (fuel + 1) depth false (byte ',' :: bytes) = readItem fuel depth (b :: rest) := by
  rw [readItems, skipSpace_cons rfl]
  dsimp only
  rw [if_neg (by decide), if_neg Bool.false_ne_true, if_neg (fun h => h rfl), hbytes]
  dsimp only
  rw [if_neg hclose]

/-- The closing brace ends the members of an object. -/
theorem readMembers_close {first : Bool} :
    readMembers (fuel + 1) depth first (byte '\x7d' :: bytes) = .ok ([], bytes) :=
  rfl

/-- The first member of an object stands behind no comma and begins with a quotation mark. -/
theorem readMembers_first : readMembers (fuel + 1) depth true (byte '"' :: bytes) =
    readMember fuel depth bytes :=
  rfl

/-- Every other member stands behind a comma and begins with a quotation mark as well. -/
theorem readMembers_next (hbytes : skipSpace bytes = byte '"' :: rest) :
    readMembers (fuel + 1) depth false (byte ',' :: bytes) = readMember fuel depth rest := by
  rw [readMembers, skipSpace_cons rfl]
  dsimp only
  rw [if_neg (by decide), if_neg Bool.false_ne_true, if_neg (fun h => h rfl), hbytes]
  dsimp only
  rw [if_pos rfl]

/-- A value begins with a byte that is neither a blank nor a closing bracket. -/
theorem Begins.head {v : Json} (h : Begins (.value v) bytes rest) :
    ∃ b behind, bytes = b :: behind ∧ isSpace b = false ∧ b ≠ byte ']' := by
  cases h with
  | nullWord => exact ⟨_, _, rfl, rfl, by decide⟩
  | trueWord => exact ⟨_, _, rfl, rfl, by decide⟩
  | falseWord => exact ⟨_, _, rfl, rfl, by decide⟩
  | negative h => exact ⟨_, _, rfl, rfl, by decide⟩
  | number h =>
    obtain ⟨b, behind, rfl, hb⟩ := head_of_readNumber h
    exact ⟨b, behind, rfl, not_isSpace_of_isDigit hb, ne_of_isDigit hb rfl⟩
  | string h => exact ⟨_, _, rfl, rfl, by decide⟩
  | array h => exact ⟨_, _, rfl, rfl, by decide⟩
  | object h => exact ⟨_, _, rfl, rfl, by decide⟩

/-- So does an item. -/
theorem Begins.head_item {vs : List Json} (h : Begins (.item vs) bytes rest) :
    ∃ b behind, bytes = b :: behind ∧ isSpace b = false ∧ b ≠ byte ']' := by
  cases h with
  | item hv hitems => exact hv.head

/-- A part leaves fuel for a step: it takes up a byte at least. -/
theorem Begins.exists_fuel {phrase : Phrase} (h : Begins phrase bytes rest)
    (hfuel : 3 * bytes.length ≤ fuel + phrase.reserve + 3 * rest.length) : ∃ k, fuel = k + 1 := by
  have hlength := h.length_lt
  have hreserve : phrase.reserve ≤ 1 := by cases phrase <;> exact Nat.le_of_ble_eq_true rfl
  exact ⟨fuel - 1, by omega⟩

/-- What is a text of a part is read as it, if there is room for what is nested in it. The fuel
lasts since every part takes up bytes. -/
theorem Begins.isRead {phrase : Phrase} {bytes rest : List UInt8} (h : Begins phrase bytes rest)
    {fuel depth : Nat} (hdepth : phrase.nesting ≤ depth)
    (hfuel : 3 * bytes.length ≤ fuel + phrase.reserve + 3 * rest.length) :
    phrase.IsRead fuel depth bytes rest := by
  induction h generalizing fuel depth with
  | nullWord =>
    obtain ⟨fuel, rfl⟩ := Begins.nullWord.exists_fuel hfuel
    unfold Phrase.IsRead
    rw [readValue_null, readWord_eq_ok_iff.2 rfl]
    rfl
  | trueWord =>
    obtain ⟨fuel, rfl⟩ := Begins.trueWord.exists_fuel hfuel
    unfold Phrase.IsRead
    rw [readValue_true, readWord_eq_ok_iff.2 rfl]
    rfl
  | falseWord =>
    obtain ⟨fuel, rfl⟩ := Begins.falseWord.exists_fuel hfuel
    unfold Phrase.IsRead
    rw [readValue_false, readWord_eq_ok_iff.2 rfl]
    rfl
  | negative h =>
    obtain ⟨fuel, rfl⟩ := (Begins.negative h).exists_fuel hfuel
    unfold Phrase.IsRead
    rw [readValue_negative, h]
    rfl
  | number h =>
    obtain ⟨fuel, rfl⟩ := (Begins.number h).exists_fuel hfuel
    obtain ⟨b, behind, rfl, hb⟩ := head_of_readNumber h
    unfold Phrase.IsRead
    rw [readValue_digit hb, h]
    rfl
  | string h =>
    obtain ⟨fuel, rfl⟩ := (Begins.string h).exists_fuel hfuel
    unfold Phrase.IsRead
    rw [readValue_string, h]
    rfl
  | @array bytes items rest h ih =>
    obtain ⟨fuel, rfl⟩ := (Begins.array h).exists_fuel hfuel
    have hspace := length_skipSpace bytes
    simp only [Phrase.nesting, Phrase.reserve, nesting, List.length_cons] at hdepth hfuel ih
    obtain ⟨depth, rfl⟩ : ∃ k, depth = k + 1 := ⟨depth - 1, by omega⟩
    have hitems : readItems fuel depth true (skipSpace bytes) = .ok (items, rest) :=
      ih (by omega) (by omega)
    rw [readItems_skipSpace] at hitems
    unfold Phrase.IsRead
    rw [readValue_array, hitems]
    rfl
  | @object bytes members rest h ih =>
    obtain ⟨fuel, rfl⟩ := (Begins.object h).exists_fuel hfuel
    have hspace := length_skipSpace bytes
    simp only [Phrase.nesting, Phrase.reserve, nesting, List.length_cons] at hdepth hfuel ih
    obtain ⟨depth, rfl⟩ : ∃ k, depth = k + 1 := ⟨depth - 1, by omega⟩
    have hmembers : readMembers fuel depth true (skipSpace bytes) = .ok (members, rest) :=
      ih (by omega) (by omega)
    rw [readMembers_skipSpace] at hmembers
    unfold Phrase.IsRead
    rw [readValue_object, hmembers]
    rfl
  | noItem =>
    obtain ⟨fuel, rfl⟩ := Begins.noItem.exists_fuel hfuel
    exact readItems_close
  | @firstItem bytes items rest h ih =>
    obtain ⟨fuel, rfl⟩ := (Begins.firstItem h).exists_fuel hfuel
    simp only [Phrase.nesting, Phrase.reserve] at hdepth hfuel ih
    have hitem : readItem fuel depth bytes = .ok (items, rest) := ih (by omega) (by omega)
    obtain ⟨b, behind, rfl, hspace, hclose⟩ := h.head_item
    exact (readItems_first hspace hclose).trans hitem
  | @nextItem bytes items rest h ih =>
    obtain ⟨fuel, rfl⟩ := (Begins.nextItem h).exists_fuel hfuel
    have hspace := length_skipSpace bytes
    simp only [Phrase.nesting, Phrase.reserve, List.length_cons] at hdepth hfuel ih
    have hitem : readItem fuel depth (skipSpace bytes) = .ok (items, rest) :=
      ih (by omega) (by omega)
    obtain ⟨b, behind, hbytes, -, hclose⟩ := h.head_item
    rw [hbytes] at hitem
    exact (readItems_next hbytes hclose).trans hitem
  | @item bytes v behind items rest hv hitems ihv ihitems =>
    obtain ⟨fuel, rfl⟩ := (Begins.item hv hitems).exists_fuel hfuel
    have hlengthValue := hv.length_lt
    have hlengthItems := hitems.length_lt
    have hspace := length_skipSpace behind
    simp only [Phrase.nesting, Phrase.reserve, nestingItems] at hdepth hfuel ihv ihitems
    have hreadValue : readValue fuel depth bytes = .ok (v, behind) := ihv (by omega) (by omega)
    have hreadItems : readItems fuel depth false (skipSpace behind) = .ok (items, rest) :=
      ihitems (by omega) (by omega)
    rw [readItems_skipSpace] at hreadItems
    unfold Phrase.IsRead
    rw [readItem, hreadValue]
    dsimp only
    rw [hreadItems]
    rfl
  | noMember =>
    obtain ⟨fuel, rfl⟩ := Begins.noMember.exists_fuel hfuel
    exact readMembers_close
  | @firstMember bytes members rest h ih =>
    obtain ⟨fuel, rfl⟩ := (Begins.firstMember h).exists_fuel hfuel
    simp only [Phrase.nesting, Phrase.reserve, List.length_cons] at hdepth hfuel ih
    have hmember : readMember fuel depth bytes = .ok (members, rest) := ih (by omega) (by omega)
    exact readMembers_first.trans hmember
  | @nextMember bytes key members rest hquote h ih =>
    obtain ⟨fuel, rfl⟩ := (Begins.nextMember hquote h).exists_fuel hfuel
    have hspace := length_skipSpace bytes
    rw [hquote] at hspace
    simp only [Phrase.nesting, Phrase.reserve, List.length_cons] at hdepth hfuel hspace ih
    have hmember : readMember fuel depth key = .ok (members, rest) := ih (by omega) (by omega)
    exact (readMembers_next hquote).trans hmember
  | @member bytes key colon value v behind members rest hkey hcolon hv hmembers ihv ihmembers =>
    obtain ⟨fuel, rfl⟩ := (Begins.member hkey hcolon hv hmembers).exists_fuel hfuel
    have hlengthKey := length_readString hkey
    have hspaceColon := length_skipSpace colon
    have hspaceValue := length_skipSpace value
    have hlengthValue := hv.length_lt
    have hspaceBehind := length_skipSpace behind
    have hlengthMembers := hmembers.length_lt
    rw [hcolon, List.length_cons] at hspaceColon
    simp only [Phrase.nesting, Phrase.reserve, nestingMembers] at hdepth hfuel ihv ihmembers
    have hreadValue : readValue fuel depth (skipSpace value) = .ok (v, behind) :=
      ihv (by omega) (by omega)
    have hreadMembers : readMembers fuel depth false (skipSpace behind) = .ok (members, rest) :=
      ihmembers (by omega) (by omega)
    rw [readValue_skipSpace] at hreadValue
    rw [readMembers_skipSpace] at hreadMembers
    unfold Phrase.IsRead
    rw [readMember, hkey]
    dsimp only
    rw [hcolon]
    dsimp only
    rw [if_neg (fun h => h rfl), hreadValue]
    dsimp only
    rw [hreadMembers]
    rfl

end

/-! ## What is read is a text -/

/-- Where a part begins among bytes that are read: behind blanks, but a member inside its key. -/
def Phrase.start : Phrase → List UInt8 → List UInt8
  | .member _, bytes => bytes
  | _, bytes => skipSpace bytes

/-- Whatever is read with so much fuel is a text, and what is nested in it has room. -/
def ReadsTexts (fuel : Nat) : Prop :=
  ∀ (phrase : Phrase) (depth : Nat) (bytes rest : List UInt8),
    phrase.IsRead fuel depth bytes rest →
      Begins phrase (phrase.start bytes) rest ∧ phrase.nesting ≤ depth

section

variable {fuel depth : Nat} {bytes rest : List UInt8}

/-- A value that is read with one more unit of fuel stands at the start of the bytes, if that is so
of whatever is read with less. -/
theorem begins_of_readValue (ih : ReadsTexts fuel) {v : Json}
    (h : readValue (fuel + 1) depth bytes = .ok (v, rest)) :
    Begins (.value v) (skipSpace bytes) rest ∧ v.nesting ≤ depth := by
  rw [readValue] at h
  split at h
  · cases h
  next b behind hbytes =>
  rw [hbytes]
  split at h
  · next hb =>
    obtain ⟨after, hword, hv⟩ := map_eq_ok_iff.1 h
    cases hv
    rw [hb, readWord_eq_ok_iff.1 hword]
    exact ⟨.nullWord, Nat.zero_le depth⟩
  split at h
  · next hb =>
    obtain ⟨after, hword, hv⟩ := map_eq_ok_iff.1 h
    cases hv
    rw [hb, readWord_eq_ok_iff.1 hword]
    exact ⟨.trueWord, Nat.zero_le depth⟩
  split at h
  · next hb =>
    obtain ⟨after, hword, hv⟩ := map_eq_ok_iff.1 h
    cases hv
    rw [hb, readWord_eq_ok_iff.1 hword]
    exact ⟨.falseWord, Nat.zero_le depth⟩
  split at h
  · next hb =>
    obtain ⟨⟨n, after⟩, hnumber, hv⟩ := map_eq_ok_iff.1 h
    cases hv
    rw [hb]
    exact ⟨.negative hnumber, Nat.zero_le depth⟩
  split at h
  · obtain ⟨⟨n, after⟩, hnumber, hv⟩ := map_eq_ok_iff.1 h
    cases hv
    exact ⟨.number hnumber, Nat.zero_le depth⟩
  split at h
  · next hb =>
    obtain ⟨⟨s, after⟩, hstring, hv⟩ := map_eq_ok_iff.1 h
    cases hv
    rw [hb]
    exact ⟨.string hstring, Nat.zero_le depth⟩
  split at h
  · next hb =>
    split at h
    · cases h
    next hdepth =>
    obtain ⟨⟨items, after⟩, hitems, hv⟩ := map_eq_ok_iff.1 h
    cases hv
    obtain ⟨hbegins, hnesting⟩ := ih (.items true items) (depth - 1) behind rest hitems
    rw [hb]
    exact ⟨.array hbegins, Nat.add_le_of_le_sub (Nat.pos_of_ne_zero hdepth) hnesting⟩
  split at h
  · next hb =>
    split at h
    · cases h
    next hdepth =>
    obtain ⟨⟨members, after⟩, hmembers, hv⟩ := map_eq_ok_iff.1 h
    cases hv
    obtain ⟨hbegins, hnesting⟩ := ih (.members true members) (depth - 1) behind rest hmembers
    rw [hb]
    exact ⟨.object hbegins, Nat.add_le_of_le_sub (Nat.pos_of_ne_zero hdepth) hnesting⟩
  · cases h

/-- The same for items in front of which a comma or nothing stands. -/
theorem begins_of_readItems (ih : ReadsTexts fuel) {first : Bool} {items : List Json}
    (h : readItems (fuel + 1) depth first bytes = .ok (items, rest)) :
    Begins (.items first items) (skipSpace bytes) rest ∧ nestingItems items ≤ depth := by
  rw [readItems] at h
  split at h
  · cases h
  next b behind hbytes =>
  rw [hbytes]
  split at h
  · next hb =>
    cases h
    rw [hb]
    exact ⟨.noItem, Nat.zero_le depth⟩
  split at h
  · next hfirst =>
    have hspace : skipSpace (b :: behind) = b :: behind := hbytes ▸ skipSpace_skipSpace bytes
    obtain ⟨hbegins, hnesting⟩ := ih (.item items) depth (b :: behind) rest h
    rw [hfirst]
    exact ⟨.firstItem (hspace ▸ hbegins), hnesting⟩
  next hfirst =>
  rw [Bool.eq_false_iff.2 hfirst]
  split at h
  · cases h
  next hcomma =>
  split at h
  · cases h
  next c after hafter =>
  split at h
  · cases h
  · have hspace : skipSpace (c :: after) = c :: after := hafter ▸ skipSpace_skipSpace behind
    obtain ⟨hbegins, hnesting⟩ := ih (.item items) depth (c :: after) rest h
    rw [Decidable.not_not.1 hcomma]
    refine ⟨.nextItem ?_, hnesting⟩
    rw [hafter]
    exact hspace ▸ hbegins

/-- The same for an item and those behind it. -/
theorem begins_of_readItem (ih : ReadsTexts fuel) {items : List Json}
    (h : readItem (fuel + 1) depth bytes = .ok (items, rest)) :
    Begins (.item items) (skipSpace bytes) rest ∧ nestingItems items ≤ depth := by
  rw [readItem] at h
  split at h
  · cases h
  next v behind hvalue =>
  obtain ⟨⟨vs, after⟩, hitems, hv⟩ := map_eq_ok_iff.1 h
  cases hv
  obtain ⟨hbegins, hnesting⟩ := ih (.value v) depth bytes behind hvalue
  obtain ⟨hbeginItems, hnestingItems⟩ := ih (.items false vs) depth behind rest hitems
  exact ⟨.item hbegins hbeginItems, Nat.max_le.2 ⟨hnesting, hnestingItems⟩⟩

/-- The same for members in front of which a comma or nothing stands. -/
theorem begins_of_readMembers (ih : ReadsTexts fuel) {first : Bool}
    {members : List (String × Json)}
    (h : readMembers (fuel + 1) depth first bytes = .ok (members, rest)) :
    Begins (.members first members) (skipSpace bytes) rest ∧ nestingMembers members ≤ depth := by
  rw [readMembers] at h
  split at h
  · cases h
  next b behind hbytes =>
  rw [hbytes]
  split at h
  · next hb =>
    cases h
    rw [hb]
    exact ⟨.noMember, Nat.zero_le depth⟩
  split at h
  · next hfirst =>
    split at h
    · next hb =>
      obtain ⟨hbegins, hnesting⟩ := ih (.member members) depth behind rest h
      rw [hfirst, hb]
      exact ⟨.firstMember hbegins, hnesting⟩
    · cases h
  next hfirst =>
  rw [Bool.eq_false_iff.2 hfirst]
  split at h
  · cases h
  next hcomma =>
  split at h
  · cases h
  next c after hafter =>
  split at h
  · next hc =>
    obtain ⟨hbegins, hnesting⟩ := ih (.member members) depth after rest h
    rw [Decidable.not_not.1 hcomma]
    exact ⟨.nextMember (hc ▸ hafter) hbegins, hnesting⟩
  split at h
  · cases h
  · cases h

/-- The same for a member, from behind its quotation mark on, and those behind it. -/
theorem begins_of_readMember (ih : ReadsTexts fuel) {members : List (String × Json)}
    (h : readMember (fuel + 1) depth bytes = .ok (members, rest)) :
    Begins (.member members) bytes rest ∧ nestingMembers members ≤ depth := by
  rw [readMember] at h
  split at h
  · cases h
  next key colon hkey =>
  split at h
  · cases h
  next b value hcolon =>
  split at h
  · cases h
  next hb =>
  split at h
  · cases h
  next v behind hvalue =>
  obtain ⟨⟨ms, after⟩, hmembers, hv⟩ := map_eq_ok_iff.1 h
  cases hv
  obtain ⟨hbegins, hnesting⟩ := ih (.value v) depth value behind hvalue
  obtain ⟨hbeginMembers, hnestingMembers⟩ := ih (.members false ms) depth behind rest hmembers
  rw [Decidable.not_not.1 hb] at hcolon
  exact ⟨.member hkey hcolon hbegins hbeginMembers, Nat.max_le.2 ⟨hnesting, hnestingMembers⟩⟩

end

/-- Whatever is read is a text. -/
theorem readsTexts (fuel : Nat) : ReadsTexts fuel := by
  induction fuel with
  | zero => intro phrase depth bytes rest h; cases phrase <;> cases h
  | succ fuel ih =>
    intro phrase depth bytes rest h
    cases phrase with
    | value v => exact begins_of_readValue ih h
    | items first vs => exact begins_of_readItems ih h
    | item vs => exact begins_of_readItem ih h
    | members first ms => exact begins_of_readMembers ih h
    | member ms => exact begins_of_readMember ih h

/-! ## Documents -/

/-- The first value of a text is read exactly if it is not nested too deep. -/
theorem readFirst_eq_ok_iff {bytes rest : List UInt8} {v : Json} :
    readFirst bytes = .ok (v, rest) ↔
      Begins (.value v) (skipSpace bytes) rest ∧ v.nesting ≤ maxDepth := by
  constructor
  · exact readsTexts _ (.value v) maxDepth bytes rest
  · rintro ⟨hbegins, hnesting⟩
    have hspace := length_skipSpace bytes
    have hread : readValue (3 * bytes.length + 3) maxDepth (skipSpace bytes) = .ok (v, rest) :=
      hbegins.isRead hnesting (by unfold Phrase.reserve; omega)
    rwa [readValue_skipSpace] at hread

/-- Nothing is left behind a document. -/
theorem checkEnd_eq_ok_iff {rest : List UInt8} : checkEnd rest = .ok () ↔ skipSpace rest = [] := by
  unfold checkEnd
  split
  · next h => exact ⟨fun _ => h, fun _ => rfl⟩
  · next h => exact ⟨fun h' => (nomatch h'), fun h' => absurd h' h⟩

/-- A text is read exactly if it is a document of a value that is not nested too deep. -/
theorem parseBytes_eq_ok_iff {bytes : List UInt8} {v : Json} :
    parseBytes bytes = .ok v ↔ IsDocument bytes v ∧ v.nesting ≤ maxDepth := by
  unfold parseBytes
  constructor
  · intro h
    split at h
    · cases h
    · next hread =>
      obtain ⟨u, hend, hv⟩ := map_eq_ok_iff.1 h
      cases hv
      obtain ⟨hbegins, hnesting⟩ := readFirst_eq_ok_iff.1 hread
      exact ⟨⟨_, hbegins, checkEnd_eq_ok_iff.1 hend⟩, hnesting⟩
  · rintro ⟨⟨rest, hbegins, hend⟩, hnesting⟩
    rw [readFirst_eq_ok_iff.2 ⟨hbegins, hnesting⟩]
    dsimp only
    rw [checkEnd_eq_ok_iff.2 hend]
    rfl

end ChangeFeed.Json
