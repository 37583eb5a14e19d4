import ChangeFeed.Text.Numeral
import ChangeFeed.Text.Segment
import ChangeFeed.Text.Utf8

/-!
# Request targets

The target of a request is a path with an optional query; in front of the path there may stand a
scheme and an authority, which do not matter. A path is decoded in two passes: the
first keeps the escapes of the percent sign, the slash and the plus sign, so that an escaped slash
separates nothing; the second decodes what is left inside a segment.
-/

namespace ChangeFeed.Operator

/-- The byte that two hexadecimal digits write. -/
def hexByte? (a b : UInt8) : Option UInt8 := do
  let high ← Text.hexValue? a
  let low ← Text.hexValue? b
  return (high * 16 + low).toUInt8

/-- The byte of the escape that a text starts with. -/
def escapeAt? : List UInt8 → Option UInt8
  | 0x25 :: a :: b :: _ => hexByte? a b
  | _ => none

/-- Replaces escapes by their bytes, but those of the bytes that are kept escaped. A percent sign
that starts no escape stays. The first `skip` bytes belong to an escape that is already replaced. -/
def unescapeFrom (kept : UInt8 → Bool) : (skip : Nat) → List UInt8 → List UInt8
  | _, [] => []
  | skip + 1, _ :: rest => unescapeFrom kept skip rest
  | 0, b :: rest =>
    match escapeAt? (b :: rest) with
    | some c =>
      if kept c then b :: unescapeFrom kept 0 rest else c :: unescapeFrom kept 2 rest
    | none => b :: unescapeFrom kept 0 rest

/-- Replaces escapes by their bytes, but those of the bytes that are kept escaped. -/
def unescape (kept : UInt8 → Bool) (bytes : List UInt8) : List UInt8 :=
  unescapeFrom kept 0 bytes

/-- The bytes that the first pass over a path keeps escaped: the percent sign, the slash and the
plus sign. -/
def keptInPath (b : UInt8) : Bool :=
  b = 0x25 || b = 0x2F || b = 0x2B

/-- Decodes a path up to the escapes that are kept. -/
def decodePath (path : List Char) : String :=
  Text.ofUtf8 (unescape keptInPath (Text.toUtf8 path))

/-- Decodes every escape. -/
def decodeAll (cs : List Char) : String :=
  Text.ofUtf8 (unescape (fun _ => false) (Text.toUtf8 cs))

/-- Decodes a name or a value of a query, in which a plus sign is a blank. -/
def decodeField (cs : List Char) : String :=
  decodeAll (cs.map fun c => if c = '+' then ' ' else c)

/-- The target of a request. -/
structure Target where
  path : List Char
  query : List Char
deriving DecidableEq

namespace Target

/-- The part of a target from the path on: all of it where it starts with a slash, else what stands
behind a scheme and an authority. A target with neither has no path. -/
def fromPath (cs : List Char) : List Char :=
  if cs.head? = some '/' then cs
  else
    match Text.splitFirst ':' cs with
    | some (_, '/' :: '/' :: rest) => rest.dropWhile fun c => c ≠ '/' && c ≠ '?'
    | _ => []

/-- Takes a target apart; a fragment is dropped. -/
def ofText (text : String) : Target :=
  let cs := fromPath (text.toList.takeWhile (· ≠ '#'))
  match Text.splitFirst '?' cs with
  | some (path, query) => ⟨path, query⟩
  | none => ⟨cs, []⟩

/-- The fields of the query in order. A field without an equals sign has an empty value. -/
def fields (target : Target) : List (String × String) :=
  ((Text.splitAll '&' target.query).filter (· ≠ [])).map fun field =>
    match Text.splitFirst '=' field with
    | some (name, value) => (decodeField name, decodeField value)
    | none => (decodeField field, "")

end Target

/-- Why a query is refused. -/
inductive QueryError where
  | numeral (e : Text.NumeralError)
  | duplicateLimit
deriving DecidableEq

/-- The wording of a refusal. -/
def QueryError.message : QueryError → String
  | .numeral e => "Query deserialize error: " ++ e.message
  | .duplicateLimit => "Query deserialize error: duplicate field \x60limit\x60"

/-- The largest limit that can be written, which has 64 bits. -/
def maxLimitNumeral : Nat :=
  18446744073709551615

/-- The limit among fields, after one that was found before. Other fields do not matter. -/
def limitOf? (found : Option Nat) : List (String × String) → Except QueryError (Option Nat)
  | [] => .ok found
  | (name, value) :: rest =>
    if name = "limit" then
      if found.isSome then .error .duplicateLimit
      else
        match Text.readNat maxLimitNumeral value.toList with
        | .ok n => limitOf? (some n) rest
        | .error e => .error (.numeral e)
    else limitOf? found rest

/-- The limit that a query asks for. -/
def Target.limit (target : Target) : Except QueryError (Option Nat) :=
  limitOf? none target.fields

end ChangeFeed.Operator
