import ChangeFeed.Json.Token

/-!
# Reading JSON

`Json.parse` reads one value that fills the whole text, from bytes. Containers may be nested 127
deep; the fault is reported at the bracket that would open the next one. Members keep the order of
the text, repeated keys included.
-/

namespace ChangeFeed.Json

/-- How deep containers may be nested. -/
def maxDepth : Nat :=
  127

mutual

/-- Reads a value. `depth` more containers may be opened; `fuel` is at least twice the number of
bytes. -/
def readValue : (fuel depth : Nat) → List UInt8 → Step Json
  | 0, _, _ => .error .endInValue
  | fuel + 1, depth, bytes =>
    match skipSpace bytes with
    | [] => .error .endInValue
    | b :: rest =>
      if b = byte 'n' then (readWord ['u', 'l', 'l'] rest).map fun rest => (.null, rest)
      else if b = byte 't' then (readWord ['r', 'u', 'e'] rest).map fun rest => (.bool true, rest)
      else if b = byte 'f' then
        (readWord ['a', 'l', 's', 'e'] rest).map fun rest => (.bool false, rest)
      else if b = byte '-' then (readNumber true rest).map fun (n, rest) => (.number n, rest)
      else if isDigit b then (readNumber false (b :: rest)).map fun (n, rest) => (.number n, rest)
      else if b = byte '"' then (readString rest).map fun (s, rest) => (.string s, rest)
      else if b = byte '[' then
        if depth = 0 then .error .tooDeep
        else (readItems fuel (depth - 1) true rest).map fun (items, rest) => (.array items, rest)
      else if b = byte '\x7b' then
        if depth = 0 then .error .tooDeep
        else
          (readMembers fuel (depth - 1) true rest).map fun (members, rest) =>
            (.object members, rest)
      else .error .expectedValue
termination_by structural fuel => fuel

/-- Reads the items of an array up to its closing bracket; `first` before any item. -/
def readItems : (fuel depth : Nat) → (first : Bool) → List UInt8 → Step (List Json)
  | 0, _, _, _ => .error .endInList
  | fuel + 1, depth, first, bytes =>
    match skipSpace bytes with
    | [] => .error .endInList
    | b :: rest =>
      if b = byte ']' then .ok ([], rest)
      else if first then readItem fuel depth (b :: rest)
      else if b ≠ byte ',' then .error .expectedListComma
      else
        match skipSpace rest with
        | [] => .error .endInValue
        | c :: rest =>
          if c = byte ']' then .error .trailingComma else readItem fuel depth (c :: rest)
termination_by structural fuel => fuel

/-- Reads an item and the items after it. -/
def readItem : (fuel depth : Nat) → List UInt8 → Step (List Json)
  | 0, _, _ => .error .endInList
  | fuel + 1, depth, bytes =>
    match readValue fuel depth bytes with
    | .error e => .error e
    | .ok (item, rest) =>
      (readItems fuel depth false rest).map fun (items, rest) => (item :: items, rest)
termination_by structural fuel => fuel

/-- Reads the members of an object up to its closing brace; `first` before any member. -/
def readMembers :
    (fuel depth : Nat) → (first : Bool) → List UInt8 → Step (List (String × Json))
  | 0, _, _, _ => .error .endInObject
  | fuel + 1, depth, first, bytes =>
    match skipSpace bytes with
    | [] => .error .endInObject
    | b :: rest =>
      if b = byte '\x7d' then .ok ([], rest)
      else if first then
        if b = byte '"' then readMember fuel depth rest else .error .keyNotString
      else if b ≠ byte ',' then .error .expectedObjectComma
      else
        match skipSpace rest with
        | [] => .error .endInValue
        | c :: rest =>
          if c = byte '"' then readMember fuel depth rest
          else if c = byte '\x7d' then .error .trailingComma
          else .error .keyNotString
termination_by structural fuel => fuel

/-- Reads a member after the opening quote of its key, and the members after it. -/
def readMember : (fuel depth : Nat) → List UInt8 → Step (List (String × Json))
  | 0, _, _ => .error .endInObject
  | fuel + 1, depth, bytes =>
    match readString bytes with
    | .error e => .error e
    | .ok (key, rest) =>
      match skipSpace rest with
      | [] => .error .endInObject
      | b :: rest =>
        if b ≠ byte ':' then .error .expectedColon
        else
          match readValue fuel depth rest with
          | .error e => .error e
          | .ok (value, rest) =>
            (readMembers fuel depth false rest).map fun (members, rest) =>
              ((key, value) :: members, rest)
termination_by structural fuel => fuel

end

/-- Reads the value in front of a text: the value and the bytes after it. -/
def readFirst (bytes : List UInt8) : Step Json :=
  readValue (3 * bytes.length + 3) maxDepth bytes

/-- Whether only blanks are left. -/
def checkEnd (rest : List UInt8) : Except SyntaxError Unit :=
  if skipSpace rest = [] then .ok () else .error .trailingCharacters

/-- Reads the one value that fills a text. -/
def parseBytes (bytes : List UInt8) : Except SyntaxError Json :=
  match readFirst bytes with
  | .error e => .error e
  | .ok (v, rest) => (checkEnd rest).map fun _ => v

/-- Reads the one value that fills a string. -/
def parse (s : String) : Except SyntaxError Json :=
  parseBytes s.toUTF8.data.toList

end ChangeFeed.Json
