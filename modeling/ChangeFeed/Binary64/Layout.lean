import ChangeFeed.Binary64.Shortest

/-!
# Writing a number in decimal

A number is written with its shortest digits. Which way ties between those go, where the digits are
written positionally, where in scientific notation, and how whole numbers look is the choice of a
format, held in one record.
-/

namespace ChangeFeed

/-- The choices of a number format. -/
structure NumberLayout where
  /-- Which of two equally near decimals is written. -/
  tie : TieRule
  /-- The powers of ten of the leading digit that are written positionally, without the second
  bound; with none, every number is. -/
  positional : Option (Int × Int)
  /-- A whole number keeps a point and one zero. -/
  keepsPoint : Bool
  /-- A positive exponent has a plus sign. -/
  signsExponent : Bool

namespace NumberLayout

/-- Digits without an exponent: the point stands among the digits or zeros fill the gap. -/
def positionalText (layout : NumberLayout) (digits : List Char) (exponent : Int) : List Char :=
  let leading : Int := digits.length - 1 + exponent
  if 0 ≤ exponent then
    digits ++ List.replicate exponent.toNat '0' ++ (if layout.keepsPoint then ['.', '0'] else [])
  else if 0 ≤ leading then
    digits.take (leading.toNat + 1) ++ '.' :: digits.drop (leading.toNat + 1)
  else
    ['0', '.'] ++ List.replicate (-leading - 1).toNat '0' ++ digits

/-- One digit, the rest behind the point, and the exponent. -/
def scientificText (layout : NumberLayout) (digits : List Char) (exponent : Int) : List Char :=
  let leading : Int := digits.length - 1 + exponent
  let fraction := digits.drop 1
  let sign := if leading < 0 then ['-'] else if layout.signsExponent then ['+'] else []
  digits.take 1 ++ (if fraction = [] then [] else '.' :: fraction) ++
    'e' :: sign ++ Nat.toDigits 10 leading.natAbs

/-- Writes a magnitude. -/
def magnitudeText (layout : NumberLayout) (m : Magnitude) : List Char :=
  let d := m.shortest layout.tie
  let digits := Nat.toDigits 10 d.digits
  let leading : Int := digits.length - 1 + d.exponent
  match layout.positional with
  | none => layout.positionalText digits d.exponent
  | some (least, bound) =>
    if d.digits = 0 ∨ (least ≤ leading ∧ leading < bound) then
      layout.positionalText digits d.exponent
    else layout.scientificText digits d.exponent

/-- Writes a number. -/
def text (layout : NumberLayout) : Binary64 → List Char
  | .finite negative m => (if negative then ['-'] else []) ++ layout.magnitudeText m
  | .infinite negative => (if negative then ['-'] else []) ++ "inf".toList
  | .nan => "NaN".toList

/-- Every number positionally, whole numbers without a point; ties go away from zero. -/
def plain : NumberLayout :=
  ⟨.away, none, false, false⟩

end NumberLayout

end ChangeFeed
