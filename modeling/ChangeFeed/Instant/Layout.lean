import ChangeFeed.Instant.Basic
import ChangeFeed.Text.Blank

/-!
# Reading timestamps

Five layouts, tried in order: the internet layout of RFC 3339 with fixed widths, then looser ones
with a blank-separated offset, with a `T`, with a blank, and with the date alone. In the looser
layouts a number may have fewer digits and blanks in front of it, and a blank of the layout stands
for any number of blanks. A text without an offset is in UTC.
-/

namespace ChangeFeed.Instant

open ChangeFeed.Text

/-- The value of a row of digits. -/
def digitsValue (cs : List Char) : Nat :=
  Nat.ofDigitChars 10 cs 0

/-- Reads exactly `width` digits. -/
def scanFixed (width : Nat) (cs : List Char) : Option (Nat × List Char) :=
  let row := cs.take width
  if row.length = width ∧ row.all Char.isDigit then some (digitsValue row, cs.drop width)
  else none

/-- Reads at least one and at most `width` digits, after any blanks. -/
def scanLoose (width : Nat) (cs : List Char) : Option (Nat × List Char) :=
  let cs := trimLeft cs
  let row := (cs.take width).takeWhile Char.isDigit
  if row = [] then none else some (digitsValue row, cs.drop row.length)

/-- Reads a year, after any blanks: at most four digits, or a sign and any number of digits. -/
def scanYear (cs : List Char) : Option (Int × List Char) :=
  match trimLeft cs with
  | '-' :: rest => signed (-1) rest
  | '+' :: rest => signed 1 rest
  | rest => (scanLoose 4 rest).map fun (n, rest) => (n, rest)
where
  /-- Reads all digits behind a sign. -/
  signed (sign : Int) (cs : List Char) : Option (Int × List Char) :=
    let row := cs.takeWhile Char.isDigit
    if row = [] then none else some (sign * digitsValue row, cs.dropWhile Char.isDigit)

/-- Reads one given character. -/
def scanChar (c : Char) : List Char → Option (List Char)
  | [] => none
  | d :: rest => if d = c then some rest else none

/-- Reads an optional fraction of a second. It has at least one digit; those after the ninth are
passed over. -/
def scanFraction : List Char → Option (Nat × List Char)
  | '.' :: cs =>
    let row := cs.takeWhile Char.isDigit
    if row = [] then none
    else
      let kept := row.take 9
      some (digitsValue kept * Nat.pow 10 (9 - kept.length), cs.dropWhile Char.isDigit)
  | cs => some (0, cs)

/-- The sign of an offset; the minus sign proper counts too. -/
def offsetSign? (c : Char) : Option Int :=
  if c = '+' then some 1 else if c = '-' ∨ c = '\u2212' then some (-1) else none

/-- Reads an offset in seconds: a sign, two digits of hours, what `gap` passes over, and two
digits of minutes. Its size is below 24 hours. -/
def scanOffset (gap : List Char → Option (List Char)) : List Char → Option (Int × List Char)
  | [] => none
  | c :: cs => do
    let sign ← offsetSign? c
    let (hours, cs) ← scanFixed 2 cs
    let cs ← gap cs
    let (minutes, cs) ← scanFixed 2 cs
    if minutes < 60 ∧ hours < 24 then some (sign * (hours * 3600 + minutes * 60 : Nat), cs)
    else none

/-- Reads an offset with a colon, or a `Z` for UTC. -/
def scanZone : List Char → Option (Int × List Char)
  | [] => none
  | c :: cs =>
    if c = 'Z' ∨ c = 'z' then some (0, cs) else scanOffset (scanChar ':') (c :: cs)

/-- Passes over any colons and blanks. -/
def skipColons (cs : List Char) : Option (List Char) :=
  some (cs.dropWhile fun c => c = ':' || isBlank c)

/-- The fixed widths of RFC 3339. -/
def readInternet? (cs : List Char) : Option Instant := do
  let (year, cs) ← scanFixed 4 cs
  let cs ← scanChar '-' cs
  let (month, cs) ← scanFixed 2 cs
  let cs ← scanChar '-' cs
  let (day, cs) ← scanFixed 2 cs
  let cs ← match cs with
    | c :: cs => if c = 'T' ∨ c = 't' ∨ c = ' ' then some cs else none
    | [] => none
  let (hour, cs) ← scanFixed 2 cs
  let cs ← scanChar ':' cs
  let (minute, cs) ← scanFixed 2 cs
  let cs ← scanChar ':' cs
  let (second, cs) ← scanFixed 2 cs
  let (nano, cs) ← scanFraction cs
  let (offset, cs) ← scanZone cs
  if cs = [] then ofReading? ⟨⟨year, month, day⟩, hour, minute, second, nano⟩ offset
  else none

/-- A date in a loose layout. -/
def scanDate (cs : List Char) : Option (Date × List Char) := do
  let (year, cs) ← scanYear cs
  let cs ← scanChar '-' cs
  let (month, cs) ← scanLoose 2 cs
  let cs ← scanChar '-' cs
  let (day, cs) ← scanLoose 2 cs
  some (⟨year, month, day⟩, cs)

/-- A date, what `gap` passes over, and a time of day, in a loose layout. -/
def scanReading (gap : List Char → Option (List Char)) (cs : List Char) :
    Option (ClockReading × List Char) := do
  let (date, cs) ← scanDate cs
  let cs ← gap cs
  let (hour, cs) ← scanLoose 2 cs
  let cs ← scanChar ':' cs
  let (minute, cs) ← scanLoose 2 cs
  let cs ← scanChar ':' cs
  let (second, cs) ← scanLoose 2 cs
  let (nano, cs) ← scanFraction cs
  some (⟨date, hour, minute, second, nano⟩, cs)

/-- Passes over any blanks. -/
def skipBlanks (cs : List Char) : Option (List Char) :=
  some (trimLeft cs)

/-- Date, blank, time, blank and offset. -/
def readWithOffset? (cs : List Char) : Option Instant := do
  let (reading, cs) ← scanReading skipBlanks cs
  let (offset, cs) ← scanOffset skipColons (trimLeft cs)
  if cs = [] then ofReading? reading offset else none

/-- Date and time with a `T` between them. -/
def readWithLetter? (cs : List Char) : Option Instant := do
  let (reading, cs) ← scanReading (scanChar 'T') cs
  if cs = [] then ofReading? reading 0 else none

/-- Date and time with blanks between them. -/
def readWithBlank? (cs : List Char) : Option Instant := do
  let (reading, cs) ← scanReading skipBlanks cs
  if cs = [] then ofReading? reading 0 else none

/-- A date alone stands for its midnight. -/
def readDate? (cs : List Char) : Option Instant := do
  let (date, cs) ← scanDate cs
  if cs = [] then ofReading? ⟨date, 0, 0, 0, 0⟩ 0 else none

/-- Reads a timestamp in the first layout that fits. -/
def read? (cs : List Char) : Option Instant :=
  readInternet? cs <|> readWithOffset? cs <|> readWithLetter? cs <|> readWithBlank? cs <|>
    readDate? cs

end ChangeFeed.Instant
