import ChangeFeed.Binary64.Rounding

/-!
# Numerals

Reading whole numbers and decimal fractions from text. A whole number is an optional sign and
ASCII digits, in the range of its type. A decimal number may have a fraction and an exponent and
is rounded to the nearest binary64 number; `inf`, `infinity` and `nan` are read in any case. Of
hexadecimal numerals only the single digits are read here: how many of them go together is up to the
escapes that they stand in.
-/

namespace ChangeFeed.Text

/-- Why a text is not a whole number of the range asked for. -/
inductive NumeralError where
  | empty
  | invalidDigit
  | tooLarge
deriving DecidableEq

/-- The wording of an error. -/
def NumeralError.message : NumeralError → String
  | .empty => "cannot parse integer from empty string"
  | .invalidDigit => "invalid digit found in string"
  | .tooLarge => "number too large to fit in target type"

/-- The value of a digit character. -/
def digitValue (c : Char) : Nat :=
  c.toNat - '0'.toNat

/-- Reads digits from left to right on top of `acc`. At each character a bad digit is noticed
before the bound is. -/
def readDigits (limit : Nat) : Nat → List Char → Except NumeralError Nat
  | acc, [] => .ok acc
  | acc, c :: cs =>
    if !c.isDigit then .error .invalidDigit
    else if limit < acc * 10 + digitValue c then .error .tooLarge
    else readDigits limit (acc * 10 + digitValue c) cs

/-- Reads a natural number up to `limit`; a plus sign may stand in front of the digits. -/
def readNat (limit : Nat) : List Char → Except NumeralError Nat
  | [] => .error .empty
  | ['+'] => .error .invalidDigit
  | '+' :: cs => readDigits limit 0 cs
  | cs => readDigits limit 0 cs

/-- The number that a non-empty row of ASCII digits writes. -/
def readDigitRow? (cs : List Char) : Option Nat :=
  if cs ≠ [] ∧ cs.all Char.isDigit then some (Nat.ofDigitChars 10 cs 0) else none

/-- Reads an integer with an optional sign. -/
def readInt? : List Char → Option Int
  | '-' :: cs => (readDigitRow? cs).map fun n => -(n : Int)
  | '+' :: cs => (readDigitRow? cs).map fun n => (n : Int)
  | cs => (readDigitRow? cs).map fun n => (n : Int)

/-- The word with this value, when it is in range. -/
def toInt64? (n : Int) : Option Int64 :=
  if -9223372036854775808 ≤ n ∧ n < 9223372036854775808 then some (Int64.ofInt n) else none

/-- Reads a 64-bit integer with an optional sign. -/
def readInt64? (cs : List Char) : Option Int64 :=
  (readInt? cs).bind toInt64?

/-- Reads an exponent: an optional sign and at least one digit. -/
def readExponent? : List Char → Option Int :=
  readInt?

/-- Reads the decimal number after its sign. -/
def readUnsigned? (negative : Bool) (cs : List Char) : Option Binary64 :=
  let whole := cs.takeWhile Char.isDigit
  let rest := cs.dropWhile Char.isDigit
  let (fraction, rest) :=
    match rest with
    | '.' :: cs => (cs.takeWhile Char.isDigit, cs.dropWhile Char.isDigit)
    | _ => ([], rest)
  if whole ++ fraction = [] then none
  else
    let value (exponent : Int) : Binary64 :=
      .ofDecimal negative (Nat.ofDigitChars 10 (whole ++ fraction) 0) (exponent - fraction.length)
    match rest with
    | [] => some (value 0)
    | c :: cs => if c = 'e' ∨ c = 'E' then (readExponent? cs).map value else none

/-- Reads the decimal number or the name of a special value after the sign. -/
def readMagnitude? (negative : Bool) (cs : List Char) : Option Binary64 :=
  let word := cs.map Char.toLower
  if word = "inf".toList ∨ word = "infinity".toList then some (.infinite negative)
  else if word = "nan".toList then some .nan
  else readUnsigned? negative cs

/-- Reads the number nearest to a decimal numeral, of any length. -/
def readBinary64? : List Char → Option Binary64
  | '-' :: cs => readMagnitude? true cs
  | '+' :: cs => readMagnitude? false cs
  | cs => readMagnitude? false cs

/-- The value of the hexadecimal digit, of either case, that a byte writes. -/
def hexValue? (b : UInt8) : Option Nat :=
  let n := b.toNat
  if 0x30 ≤ n ∧ n ≤ 0x39 then some (n - 0x30)
  else if 0x41 ≤ n ∧ n ≤ 0x46 then some (n - 0x41 + 10)
  else if 0x61 ≤ n ∧ n ≤ 0x66 then some (n - 0x61 + 10)
  else none

/-- The decimal digits of a natural number. -/
def natDigits (n : Nat) : List Char :=
  Nat.toDigits 10 n

/-- An integer in decimal, with a minus sign if it is negative. -/
def intDigits : Int → List Char
  | .ofNat n => natDigits n
  | .negSucc n => '-' :: natDigits (n + 1)

end ChangeFeed.Text
