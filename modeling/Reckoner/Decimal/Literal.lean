/-!
# Number literals

A literal is a run of digits with at most one point and at least one digit.  Its value is the
double nearest to the decimal it spells; beyond the largest double that is infinity.
-/

namespace Reckoner.Decimal

/-- A digit or a point: what a number literal is made of. -/
def isNumeral (c : Char) : Bool :=
  c.isDigit || c == '.'

theorem isNumeral_of_isDigit {c : Char} (h : c.isDigit = true) : isNumeral c = true := by
  simp [isNumeral, h]

/-- The natural number spelled by the digits of `cs`; other characters are passed over. -/
def digitsValue (cs : List Char) : Nat :=
  cs.foldl (fun n c => if c.isDigit then 10 * n + (c.toNat - '0'.toNat) else n) 0

/-- The run has at least one digit and at most one point. -/
def isLiteral (cs : List Char) : Bool :=
  cs.any Char.isDigit && cs.count '.' ≤ 1 && cs.all isNumeral

/-- How many characters follow the first point. -/
def placesAfterPoint (cs : List Char) : Nat :=
  (cs.dropWhile (· ≠ '.')).length - 1

/-- The value of a literal, `none` for a run that is none. -/
def readLiteral? (cs : List Char) : Option Float :=
  if isLiteral cs then some (Float.ofScientific (digitsValue cs) true (placesAfterPoint cs))
  else none

end Reckoner.Decimal
