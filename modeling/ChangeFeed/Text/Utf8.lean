/-!
# Reading UTF-8 that may be ill-formed

Bytes are read as UTF-8; each longest start of a character that is not continued, and each byte that
starts none, is read as one replacement character.
-/

namespace ChangeFeed.Text

/-- The start of a character that needs more bytes. -/
structure Pending where
  /-- The bits read so far. -/
  bits : Nat
  /-- How many bytes are still needed. -/
  needed : Nat
  /-- The least byte that may come next. -/
  low : Nat
  /-- The greatest byte that may come next. -/
  high : Nat

/-- What a byte at the start of a character is. -/
inductive Lead where
  | char (c : Char)
  | more (p : Pending)
  | illFormed

/-- The character that stands for what cannot be read. -/
def replacement : Char :=
  '\ufffd'

/-- A byte at the start of a character. The second byte is bounded so that no character is written
longer than needed, beyond the last one, or as a surrogate. -/
def lead (b : Nat) : Lead :=
  if b < 0x80 then .char (.ofNat b)
  else if b < 0xC2 then .illFormed
  else if b < 0xE0 then .more ⟨b - 0xC0, 1, 0x80, 0xBF⟩
  else if b = 0xE0 then .more ⟨b - 0xE0, 2, 0xA0, 0xBF⟩
  else if b = 0xED then .more ⟨b - 0xE0, 2, 0x80, 0x9F⟩
  else if b < 0xF0 then .more ⟨b - 0xE0, 2, 0x80, 0xBF⟩
  else if b = 0xF0 then .more ⟨b - 0xF0, 3, 0x90, 0xBF⟩
  else if b < 0xF4 then .more ⟨b - 0xF0, 3, 0x80, 0xBF⟩
  else if b = 0xF4 then .more ⟨b - 0xF0, 3, 0x80, 0x8F⟩
  else .illFormed

/-- The bits of a start with a continuation byte. -/
def Pending.extend (p : Pending) (b : Nat) : Nat :=
  p.bits * 64 + b % 64

/-- Reads bytes behind a start, if there is one. -/
def readUtf8 : Option Pending → List UInt8 → List Char
  | none, [] => []
  | some _, [] => [replacement]
  | none, b :: rest =>
    match lead b.toNat with
    | .char c => c :: readUtf8 none rest
    | .more p => readUtf8 (some p) rest
    | .illFormed => replacement :: readUtf8 none rest
  | some p, b :: rest =>
    if p.low ≤ b.toNat ∧ b.toNat ≤ p.high then
      if p.needed ≤ 1 then .ofNat (p.extend b.toNat) :: readUtf8 none rest
      else readUtf8 (some ⟨p.extend b.toNat, p.needed - 1, 0x80, 0xBF⟩) rest
    else
      match lead b.toNat with
      | .char c => replacement :: c :: readUtf8 none rest
      | .more p => replacement :: readUtf8 (some p) rest
      | .illFormed => replacement :: replacement :: readUtf8 none rest

/-- The text of bytes. -/
def ofUtf8 (bytes : List UInt8) : String :=
  .ofList (readUtf8 none bytes)

/-- The bytes of a text. -/
def toUtf8 (cs : List Char) : List UInt8 :=
  cs.flatMap String.utf8EncodeChar

end ChangeFeed.Text
