/-!
# Blank characters

The characters of Unicode's `White_Space` property, and the removal of blanks at the ends of a
text. Zero-width characters such as U+200B and U+FEFF are not blanks.
-/

namespace ChangeFeed.Text

/-- Whether a character has the property `White_Space`. -/
def isBlank (c : Char) : Bool :=
  let n := c.toNat
  (9 ≤ n && n ≤ 13) || n = 0x20 || n = 0x85 || n = 0xA0 || n = 0x1680 ||
    (0x2000 ≤ n && n ≤ 0x200A) || n = 0x2028 || n = 0x2029 || n = 0x202F || n = 0x205F ||
    n = 0x3000

/-- Drops the blanks in front. -/
def trimLeft (cs : List Char) : List Char :=
  cs.dropWhile isBlank

/-- Drops the blanks at the end. -/
def trimRight (cs : List Char) : List Char :=
  (cs.reverse.dropWhile isBlank).reverse

/-- Drops the blanks at both ends. -/
def trim (cs : List Char) : List Char :=
  trimRight (trimLeft cs)

/-- Whether nothing but blanks is there. -/
def isBlankText (cs : List Char) : Bool :=
  cs.all isBlank

end ChangeFeed.Text
