import Reckoner.Decimal.Shortest

/-!
# Number texts

A double is written with the digits of its shortest decimal.  The two layouts in use differ in
two decisions: whether a whole number carries `.0`, and whether very large and very small
numbers get an exponent.  Results and diagnostics use `Layout.plain`, constants in listings and
token dumps use `Layout.literal`.
-/

namespace Reckoner.Decimal

structure Layout where
  /-- Whole numbers carry `.0`. -/
  pointZero : Bool
  /-- The powers of ten of the leading digit that are written without an exponent, the upper end
  excluded.  With `none` no number gets an exponent. -/
  positional : Option (Int × Int)

/-- `1`, `0.00001`, `100000000000000000000`. -/
def Layout.plain : Layout := ⟨false, none⟩

/-- `1.0`, `1e-5`, `1e20`. -/
def Layout.literal : Layout := ⟨true, some (-4, 16)⟩

def zeros (n : Nat) : List Char := List.replicate n '0'

theorem isDigit_of_mem_zeros {n : Nat} {c : Char} (h : c ∈ zeros n) : c.isDigit = true := by
  rw [(List.mem_replicate.1 h).2]
  rfl

theorem isDigit_of_mem_toDigits {n : Nat} {c : Char} (h : c ∈ Nat.toDigits 10 n) :
    c.isDigit = true :=
  Nat.isDigit_of_mem_toDigits (by decide) (by decide) h

/-- Digits with the point after the first `whole` of them; zeros fill the gap on either side. -/
def Layout.fixed (l : Layout) (digits : List Char) (whole : Int) : List Char :=
  if whole ≤ 0 then
    ['0', '.'] ++ zeros (-whole).toNat ++ digits
  else if digits.length ≤ whole.toNat then
    digits ++ zeros (whole.toNat - digits.length) ++ (if l.pointZero then ['.', '0'] else [])
  else
    digits.take whole.toNat ++ ['.'] ++ digits.drop whole.toNat

/-- Digits with the point after the first one, and the power of ten of that one. -/
def scientific (digits : List Char) (power : Int) : List Char :=
  let mantissa := match digits with
    | d :: f :: rest => d :: '.' :: f :: rest
    | ds => ds
  let sign := if power < 0 then ['-'] else []
  mantissa ++ ['e'] ++ sign ++ Nat.toDigits 10 power.natAbs

def Layout.point (l : Layout) (p : Point) : List Char :=
  let digits := Nat.toDigits 10 p.digits
  let power := p.exponent + digits.length - 1
  match l.positional with
  | none => l.fixed digits (power + 1)
  | some (from', below) =>
    if from' ≤ power ∧ power < below then l.fixed digits (power + 1)
    else scientific digits power

/-- The text of a double.  Zero keeps its sign, and a NaN has none. -/
def Layout.text (l : Layout) (x : Float) : String :=
  if x.isNaN then "NaN"
  else
    let sign := if x.toBits.toNat < Nat.pow 2 63 then [] else ['-']
    let body :=
      if x.isInf then ['i', 'n', 'f']
      else
        let m := Magnitude.ofBits x.toBits
        if m.significand = 0 then '0' :: (if l.pointZero then ['.', '0'] else [])
        else l.point m.shortest
    String.ofList (sign ++ body)

end Reckoner.Decimal
