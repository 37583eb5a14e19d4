import ChangeFeed.Binary64.Layout
import ChangeFeed.Json.Canonical
import ChangeFeed.Text.Numeral

/-!
# Writing JSON

The compact form, without blanks, with members in the order they stand in. A string escapes the
quote, the backslash and the control characters below U+0020; everything else stands for itself.
-/

namespace ChangeFeed.Json

/-- Floats have the shortest digits, positional from `0.00001` up to below `1e+16` and always with
a point there; elsewhere an exponent with its sign. Of two equally near decimals the even one is
written. -/
def floatLayout : NumberLayout :=
  ⟨.toEven, some (-5, 16), true, true⟩

/-- A hexadecimal digit, in lower case. -/
def hexDigit (n : Nat) : Char :=
  Nat.digitChar n

/-- A character inside a string. -/
def escape (c : Char) : List Char :=
  if c = '"' then ['\\', '"']
  else if c = '\\' then ['\\', '\\']
  else if c = '\x08' then ['\\', 'b']
  else if c = '\x0c' then ['\\', 'f']
  else if c = '\n' then ['\\', 'n']
  else if c = '\r' then ['\\', 'r']
  else if c = '\t' then ['\\', 't']
  else if c.toNat < 0x20 then
    ['\\', 'u', '0', '0', hexDigit (c.toNat / 16), hexDigit (c.toNat % 16)]
  else [c]

/-- A quoted string. -/
def quote (s : String) : List Char :=
  '"' :: s.toList.flatMap escape ++ ['"']

/-- A number. A float that is not finite has no token and is written as `null`. -/
def Number.chars : Number → List Char
  | .whole n _ => Text.intDigits n
  | .float x => if x.isFinite then floatLayout.text x else "null".toList

mutual

/-- The compact text of a value. -/
def chars : Json → List Char
  | .null => "null".toList
  | .bool true => "true".toList
  | .bool false => "false".toList
  | .number n => n.chars
  | .string s => quote s
  | .array items => '[' :: itemChars items ++ [']']
  | .object members => '\x7b' :: memberChars members ++ ['\x7d']

/-- Items with commas between them. -/
def itemChars : List Json → List Char
  | [] => []
  | [v] => chars v
  | v :: rest => chars v ++ ',' :: itemChars rest

/-- Members with commas between them. -/
def memberChars : List (String × Json) → List Char
  | [] => []
  | [(k, v)] => quote k ++ ':' :: chars v
  | (k, v) :: rest => quote k ++ ':' :: chars v ++ ',' :: memberChars rest

end

/-- The compact text of a value, members as they stand. -/
def text (v : Json) : String :=
  .ofList v.chars

/-- The compact text of a value's canonical form. -/
def canonicalText (v : Json) : String :=
  v.canonical.text

end ChangeFeed.Json
