/-!
# The shortest decimal that reads back

A finite double stands for an interval of reals: those that round to it.  The decimal chosen for
it is a point of the coarsest decimal grid that has a point in that interval; of two such points
the nearer one, and of two equally near ones the larger.

For one grid all lengths are natural multiples of a common unit, so the choice is a comparison
of natural numbers (`Measured`).
-/

namespace Reckoner.Decimal

/-- The real `significand · 2 ^ exponent` of a finite double. -/
structure Magnitude where
  significand : Nat
  exponent : Int
  /-- The double below is half as far away as the double above. -/
  narrow : Bool
deriving DecidableEq

/-- The magnitude in the bits of a finite double; the sign bit is passed over. -/
def Magnitude.ofBits (bits : UInt64) : Magnitude :=
  let biased : Nat := bits.toNat / Nat.pow 2 52 % Nat.pow 2 11
  let fraction : Nat := bits.toNat % Nat.pow 2 52
  if biased = 0 then ⟨fraction, -1074, false⟩
  else ⟨Nat.pow 2 52 + fraction, (biased : Int) - 1075, fraction == 0 && 1 < biased⟩

/-- The real `digits · 10 ^ exponent`. -/
structure Point where
  digits : Nat
  exponent : Int
deriving DecidableEq

/-- A double, its rounding interval and the step of a grid, measured in one unit. -/
structure Measured where
  value : Nat
  /-- How far the interval reaches below the value. -/
  below : Nat
  /-- How far the interval reaches above the value. -/
  above : Nat
  /-- The ends belong to the interval. -/
  closed : Bool
  step : Nat
deriving DecidableEq

namespace Measured

/-- The `n`th point of the grid lies in the interval. -/
def holds (r : Measured) (n : Nat) : Bool :=
  if r.closed then r.value ≤ n * r.step + r.below && n * r.step ≤ r.value + r.above
  else r.value < n * r.step + r.below && n * r.step < r.value + r.above

/-- Which point of the grid stands for the double, if one lies in the interval. -/
def choose? (r : Measured) : Option Nat :=
  let n := r.value / r.step
  match r.holds n, r.holds (n + 1) with
  | false, false => none
  | true, false => some n
  | false, true => some (n + 1)
  | true, true => if 2 * r.value < (2 * n + 1) * r.step then some n else some (n + 1)

end Measured

namespace Magnitude

/-- The double and the grid of step `10 ^ e`.  The interval reaches halfway to the neighbours,
and its ends round to the double whose significand is even. -/
def measured (x : Magnitude) (e : Int) : Measured :=
  let quarter := Nat.pow 2 (x.exponent - 2).toNat * Nat.pow 10 (-e).toNat
  { value := 4 * x.significand * quarter
    below := if x.narrow then quarter else 2 * quarter
    above := 2 * quarter
    closed := x.significand % 2 == 0
    step := Nat.pow 2 (2 - x.exponent).toNat * Nat.pow 10 e.toNat }

def onGrid? (x : Magnitude) (e : Int) : Option Point :=
  (x.measured e).choose?.map fun n => ⟨n, e⟩

/-- The least power of ten that the position of the leading bit shows to be above `x`, or the
next one. -/
def coarsest (x : Magnitude) : Int :=
  ((x.significand.log2 + x.exponent + 1) * 30103).fdiv 100000 + 1

/-- All digits of `x`. -/
def exact (x : Magnitude) : Point :=
  if 0 ≤ x.exponent then ⟨x.significand * Nat.pow 2 x.exponent.toNat, 0⟩
  else ⟨x.significand * Nat.pow 5 (-x.exponent).toNat, x.exponent⟩

/-- The point chosen for `x`.  The last of the twenty grids is finer than seventeen digits. -/
def shortest (x : Magnitude) : Point :=
  ((List.range 20).findSome? fun i : Nat => x.onGrid? (x.coarsest - i)).getD x.exact

end Magnitude

end Reckoner.Decimal
