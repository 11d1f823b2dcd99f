import Reckoner.Text.Ranges

/-!
# Blank characters

The property White_Space of Unicode: the characters that only separate tokens.
-/

namespace Reckoner.Text

def blankRanges : List (Nat × Nat) :=
  [(0x9, 0xD), (0x20, 0x20), (0x85, 0x85), (0xA0, 0xA0), (0x1680, 0x1680), (0x2000, 0x200A),
   (0x2028, 0x2029), (0x202F, 0x202F), (0x205F, 0x205F), (0x3000, 0x3000)]

def isBlank (c : Char) : Bool :=
  inRanges blankRanges c.toNat

/-- The characters that are printed in seven bits are not blank. -/
theorem isBlank_eq_false {c : Char} (h : 0x20 < c.toNat) (h' : c.toNat < 0x7F) :
    isBlank c = false := by
  simp only [isBlank, inRanges, blankRanges, List.any_cons, List.any_nil, Bool.or_false,
    Bool.or_eq_false_iff, Bool.and_eq_false_iff, decide_eq_false_iff_not]
  omega

end Reckoner.Text
