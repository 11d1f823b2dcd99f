import Reckoner.Tools.Pattern.Tree
import Reckoner.Text.Ranges

/-!
# Sets of characters

A set is kept as closed ranges of code points, ascending and apart.  Complements are taken within
the code points up to some last one.
-/

namespace Reckoner.Pattern

structure CharSet where
  ranges : List (Nat × Nat) := []
deriving DecidableEq

namespace CharSet

/-- The ranges with one more, joined to those that it overlaps or touches. -/
def insertRange (r : Nat × Nat) : List (Nat × Nat) → List (Nat × Nat)
  | [] => [r]
  | s :: rest =>
    if r.2 + 1 < s.1 then r :: s :: rest
    else if s.2 + 1 < r.1 then s :: insertRange r rest
    else insertRange (min r.1 s.1, max r.2 s.2) rest

/-- What lies between the ranges, from `first` to `last`. -/
def gaps (first last : Nat) : List (Nat × Nat) → List (Nat × Nat)
  | [] => if first ≤ last then [(first, last)] else []
  | r :: rest =>
    if first < r.1 then (first, r.1 - 1) :: gaps (r.2 + 1) last rest
    else gaps (r.2 + 1) last rest

def has (s : CharSet) (c : Char) : Bool :=
  Text.inRanges s.ranges c.toNat

def insert (s : CharSet) (low high : Nat) : CharSet :=
  ⟨insertRange (low, high) s.ranges⟩

def single (n : Nat) : CharSet :=
  ⟨[(n, n)]⟩

def union (s t : CharSet) : CharSet :=
  ⟨t.ranges.foldl (fun rs r => insertRange r rs) s.ranges⟩

/-- The last code point there is. -/
def lastCode : Nat := 0x10FFFF

def complement (s : CharSet) (last : Nat) : CharSet :=
  ⟨gaps 0 last s.ranges⟩

def intersection (s t : CharSet) : CharSet :=
  ((s.complement lastCode).union (t.complement lastCode)).complement lastCode

def difference (s t : CharSet) : CharSet :=
  s.intersection (t.complement lastCode)

def symmetricDifference (s t : CharSet) : CharSet :=
  (s.union t).difference (s.intersection t)

def isAscii (s : CharSet) : Bool :=
  s.ranges.all fun r => r.2 < 128

/-- The set with both cases of each ASCII letter in it. -/
def withBothCases (s : CharSet) : CharSet :=
  let upper := s.intersection ⟨[(0x41, 0x5A)]⟩
  let lower := s.intersection ⟨[(0x61, 0x7A)]⟩
  let shifted : CharSet :=
    ⟨upper.ranges.map (fun r => (r.1 + 32, r.2 + 32)) ++
      lower.ranges.map (fun r => (r.1 - 32, r.2 - 32))⟩
  s.union shifted

end CharSet

/-- The ASCII characters that a named set holds. -/
def NamedSet.chars : NamedSet → CharSet
  | .alnum => ⟨[(0x30, 0x39), (0x41, 0x5A), (0x61, 0x7A)]⟩
  | .alpha => ⟨[(0x41, 0x5A), (0x61, 0x7A)]⟩
  | .ascii => ⟨[(0x00, 0x7F)]⟩
  | .blank => ⟨[(0x09, 0x09), (0x20, 0x20)]⟩
  | .cntrl => ⟨[(0x00, 0x1F), (0x7F, 0x7F)]⟩
  | .digit => ⟨[(0x30, 0x39)]⟩
  | .graph => ⟨[(0x21, 0x7E)]⟩
  | .lower => ⟨[(0x61, 0x7A)]⟩
  | .print => ⟨[(0x20, 0x7E)]⟩
  | .punct => ⟨[(0x21, 0x2F), (0x3A, 0x40), (0x5B, 0x60), (0x7B, 0x7E)]⟩
  | .space => ⟨[(0x09, 0x0D), (0x20, 0x20)]⟩
  | .upper => ⟨[(0x41, 0x5A)]⟩
  | .word => ⟨[(0x30, 0x39), (0x41, 0x5A), (0x5F, 0x5F), (0x61, 0x7A)]⟩
  | .xdigit => ⟨[(0x30, 0x39), (0x41, 0x46), (0x61, 0x66)]⟩

/-- The ASCII characters that a letter stands for. -/
def Shorthand.chars : Shorthand → CharSet
  | .digit => NamedSet.chars .digit
  | .space => NamedSet.chars .space
  | .word => NamedSet.chars .word

def SetOp.apply : SetOp → CharSet → CharSet → CharSet
  | .intersection => CharSet.intersection
  | .difference => CharSet.difference
  | .symmetricDifference => CharSet.symmetricDifference

end Reckoner.Pattern
