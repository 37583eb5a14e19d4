import ChangeFeed.Binary64.Arithmetic
import ChangeFeed.Json.Basic
import ChangeFeed.Json.SyntaxError
import ChangeFeed.Text.Numeral

/-!
# Reading the leaves of a JSON text

Blanks, words, numbers and strings, each as a function from the bytes in front of it to its value
and the bytes after it.

A number with a point or an exponent is read in two steps. Its digits go into a significand as
long as that fits in 64 bits, which fixes a power of ten; then the significand, rounded to
binary64, is multiplied or divided by that power, rounded as well. The result can therefore differ
from the nearest number in its last place.
-/

namespace ChangeFeed.Json

/-- A value and the bytes after it, or the fault that was met. -/
abbrev Step (α : Type) : Type :=
  Except SyntaxError (α × List UInt8)

/-- The blanks between tokens: space, tab, newline and carriage return. -/
def isSpace (b : UInt8) : Bool :=
  b = 0x20 || b = 0x09 || b = 0x0A || b = 0x0D

/-- Drops the blanks in front. -/
def skipSpace (bytes : List UInt8) : List UInt8 :=
  bytes.dropWhile isSpace

/-- The byte of an ASCII character. -/
def byte (c : Char) : UInt8 :=
  c.toNat.toUInt8

/-- Whether a byte is a decimal digit. -/
def isDigit (b : UInt8) : Bool :=
  byte '0' ≤ b && b ≤ byte '9'

/-- The value of a decimal digit. -/
def digitOf (b : UInt8) : Nat :=
  b.toNat - '0'.toNat

/-- Reads the given letters. -/
def readWord : List Char → List UInt8 → Except SyntaxError (List UInt8)
  | [], bytes => .ok bytes
  | _ :: _, [] => .error .endInValue
  | c :: cs, b :: bytes => if b = byte c then readWord cs bytes else .error .expectedIdent

/-- The largest significand, which has 64 bits. -/
def maxSignificand : Nat :=
  18446744073709551615

/-- Appends digits to a significand while it fits: the significand, how many digits it took, and
the bytes after them. -/
def takeDigits : Nat → List UInt8 → Nat × Nat × List UInt8
  | significand, [] => (significand, 0, [])
  | significand, b :: bytes =>
    if isDigit b && significand * 10 + digitOf b ≤ maxSignificand then
      let (s, taken, rest) := takeDigits (significand * 10 + digitOf b) bytes
      (s, taken + 1, rest)
    else (significand, 0, b :: bytes)

/-- Multiplies by a power of ten in binary64. An exponent below -308 is worked off in parts; by
the time it has been, a number that needed more than three parts is zero. -/
def scaleByPowerOfTen : Nat → Binary64 → Int → Except SyntaxError Binary64
  | 0, x, _ => .ok x
  | parts + 1, x, exponent =>
    if 0 ≤ exponent ∧ exponent ≤ 308 then
      match x.mul (.ofDecimal false 1 exponent) with
      | .infinite _ => .error .numberOutOfRange
      | y => .ok y
    else if -308 ≤ exponent ∧ exponent < 0 then
      .ok (x.div (.ofDecimal false 1 (-exponent)))
    else if x = .zero then .ok x
    else if 0 < exponent then .error .numberOutOfRange
    else scaleByPowerOfTen parts (x.div (.ofDecimal false 1 308)) (exponent + 308)

/-- The float of a significand and a power of ten. -/
def readFloat (negative : Bool) (significand : Nat) (exponent : Int) :
    Except SyntaxError Number :=
  match scaleByPowerOfTen 8 (.ofNat significand) exponent with
  | .error e => .error e
  | .ok x => .ok (.float (if negative then x.neg else x))

/-- Reads an exponent after its letter. -/
def readExponent (negative : Bool) (significand : Nat) (exponent : Int) (bytes : List UInt8) :
    Step Number :=
  let (minus, bytes) :=
    match bytes with
    | b :: rest =>
      if b = byte '-' then (true, rest) else if b = byte '+' then (false, rest) else (false, bytes)
    | [] => (false, [])
  match bytes with
  | [] => .error .endInValue
  | b :: _ =>
    if !isDigit b then .error .invalidNumber
    else
      let written := (bytes.takeWhile isDigit).foldl (fun n b => n * 10 + digitOf b) 0
      let rest := bytes.dropWhile isDigit
      if written < 2147483648 then
        let exponent := if minus then exponent - written else exponent + written
        (readFloat negative significand exponent).map fun n => (n, rest)
      else if significand ≠ 0 ∧ !minus then .error .numberOutOfRange
      else .ok (.float (.finite negative .zero), rest)

/-- Reads what may follow the digits of a float: an exponent or nothing. -/
def readFloatEnd (negative : Bool) (significand : Nat) (exponent : Int) (bytes : List UInt8) :
    Step Number :=
  let plain := (readFloat negative significand exponent).map fun n => (n, bytes)
  match bytes with
  | b :: rest =>
    if b = byte 'e' || b = byte 'E' then readExponent negative significand exponent rest else plain
  | [] => plain

/-- Reads a fraction after its point. -/
def readFraction (negative : Bool) (significand : Nat) (exponent : Int) (bytes : List UInt8) :
    Step Number :=
  match bytes with
  | [] => .error .endInValue
  | b :: _ =>
    if !isDigit b then .error .invalidNumber
    else
      let (significand, taken, rest) := takeDigits significand bytes
      readFloatEnd negative significand (exponent - taken) (rest.dropWhile isDigit)

/-- The whole number of a token without a point, an exponent or dropped digits. Negative zero and
what lies below `-2 ^ 63` become floats. -/
def wholeOrFloat (negative : Bool) (significand : Nat) : Number :=
  if !negative then
    if h : significand < 18446744073709551616 then .whole significand (Number.range_of_lt h)
    else .float (.ofNat significand)
  else if h : 0 < significand ∧ significand ≤ 9223372036854775808 then
    .whole (-significand) (Number.range_neg_of_le h.2)
  else .float (Binary64.ofNat significand).neg

/-- Reads what follows the whole digits: a fraction, an exponent, or nothing. `dropped` digits did
not fit into the significand. -/
def readNumberEnd (negative : Bool) (significand dropped : Nat) (bytes : List UInt8) :
    Step Number :=
  match bytes with
  | b :: rest =>
    if b = byte '.' then readFraction negative significand dropped rest
    else if b = byte 'e' || b = byte 'E' then readExponent negative significand dropped rest
    else if dropped = 0 then .ok (wholeOrFloat negative significand, bytes)
    else readFloatEnd negative significand dropped bytes
  | [] =>
    if dropped = 0 then .ok (wholeOrFloat negative significand, [])
    else readFloatEnd negative significand dropped []

/-- Reads a number after its sign. -/
def readNumber (negative : Bool) (bytes : List UInt8) : Step Number :=
  match bytes with
  | [] => .error .endInValue
  | b :: rest =>
    if b = byte '0' then
      if (rest.head?.map isDigit).getD false then .error .invalidNumber
      else readNumberEnd negative 0 0 rest
    else if isDigit b then
      let (significand, _, rest) := takeDigits 0 bytes
      readNumberEnd negative significand (rest.takeWhile isDigit).length (rest.dropWhile isDigit)
    else .error .invalidNumber

/-- Reads four hexadecimal digits; there have to be four bytes before any is looked at. -/
def readHex : List UInt8 → Step Nat
  | a :: b :: c :: d :: rest =>
    match Text.hexValue? a, Text.hexValue? b, Text.hexValue? c, Text.hexValue? d with
    | some a, some b, some c, some d => .ok (((a * 16 + b) * 16 + c) * 16 + d, rest)
    | _, _, _, _ => .error .invalidEscape
  | _ => .error .endInString

/-- Reads the second half of a surrogate pair. -/
def readLowSurrogate (high : Nat) : List UInt8 → Step Char
  | [] => .error .endInString
  | b :: bytes =>
    if b ≠ byte '\\' then .error .endOfHexEscape
    else
      match bytes with
      | [] => .error .endInString
      | u :: bytes =>
        if u ≠ byte 'u' then .error .endOfHexEscape
        else
          match readHex bytes with
          | .error e => .error e
          | .ok (low, rest) =>
            if low < 0xDC00 ∨ 0xDFFF < low then .error .loneSurrogate
            else .ok (Char.ofNat (0x10000 + (high - 0xD800) * 0x400 + (low - 0xDC00)), rest)

/-- Reads a character given by its code units in hexadecimal. -/
def readUnicodeEscape (bytes : List UInt8) : Step Char :=
  match readHex bytes with
  | .error e => .error e
  | .ok (n, rest) =>
    if 0xDC00 ≤ n ∧ n ≤ 0xDFFF then .error .loneSurrogate
    else if 0xD800 ≤ n ∧ n ≤ 0xDBFF then readLowSurrogate n rest
    else .ok (Char.ofNat n, rest)

/-- Reads an escape after its backslash. -/
def readEscape : List UInt8 → Step Char
  | [] => .error .endInString
  | b :: rest =>
    if b = byte '"' then .ok ('"', rest)
    else if b = byte '\\' then .ok ('\\', rest)
    else if b = byte '/' then .ok ('/', rest)
    else if b = byte 'b' then .ok ('\x08', rest)
    else if b = byte 'f' then .ok ('\x0c', rest)
    else if b = byte 'n' then .ok ('\n', rest)
    else if b = byte 'r' then .ok ('\r', rest)
    else if b = byte 't' then .ok ('\t', rest)
    else if b = byte 'u' then readUnicodeEscape rest
    else .error .invalidEscape

/-- The bytes of a string up to its closing quote; `fuel` is at least their number. -/
def readStringBytes : Nat → List UInt8 → Step (List UInt8)
  | 0, _ => .error .endInString
  | _, [] => .error .endInString
  | fuel + 1, b :: bytes =>
    if b = byte '"' then .ok ([], bytes)
    else if b = byte '\\' then
      match readEscape bytes with
      | .error e => .error e
      | .ok (c, rest) =>
        (readStringBytes fuel rest).map fun (tail, rest) => (String.utf8EncodeChar c ++ tail, rest)
    else if b < 0x20 then .error .controlCharacter
    else (readStringBytes fuel bytes).map fun (tail, rest) => (b :: tail, rest)

/-- Reads a string after its opening quote. Its bytes are checked at the closing quote. -/
def readString (bytes : List UInt8) : Step String :=
  match readStringBytes (bytes.length + 1) bytes with
  | .error e => .error e
  | .ok (content, rest) =>
    match String.fromUTF8? ⟨content.toArray⟩ with
    | some s => .ok (s, rest)
    | none => .error .invalidCodePoint

end ChangeFeed.Json
