import Reckoner.Block

/-!
# Constant folding

Going forward through a block, an instruction whose operands are known constants is replaced by
a `nop`, and later reads of its temporary by its value.  What is known about the temporaries so
far is carried along; a temporary that comes later, or is the instruction's own, is not known.
-/

namespace Reckoner

/-- The value of each temporary so far, for those that were folded. -/
abbrev KnownTemps := Array (Option Float)

/-- Replaces a temporary of known value by that value. -/
def Operand.resolve (known : KnownTemps) : Operand → Operand
  | .temp t =>
    match known[t]? with
    | some (some value) => .const value
    | _ => .temp t
  | .const value => .const value
  | .param i => .param i

/-- The value of an instruction all of whose operands are constants. -/
def Inst.constant? : Inst → Option Float
  | .arith op (.const a) (.const b) => some (op.apply a b)
  | .lessThan (.const a) (.const b) => some (comparison a b)
  | .widen (.const c) => some c
  | _ => none

theorem Inst.isPure_of_constant? {i : Inst} {v : Float} (h : i.constant? = some v) :
    i.isPure = true := by
  unfold constant? at h
  split at h <;> first | rfl | contradiction

namespace Block

/-- Folds a block, given what is known about the temporaries before it. -/
def foldFrom (known : KnownTemps) : Block → Block
  | [] => []
  | inst :: rest =>
    let resolved := inst.mapOperands (·.resolve known)
    match resolved.constant? with
    | some value => .nop :: foldFrom (known.push (some value)) rest
    | none => resolved :: foldFrom (known.push none) rest

@[simp]
theorem length_foldFrom (known : KnownTemps) (b : Block) :
    (foldFrom known b).length = b.length := by
  induction b generalizing known with
  | nil => rfl
  | cons inst rest ih =>
    simp only [foldFrom]
    split <;> simp [ih]

def fold (b : Block) : Block :=
  foldFrom #[] b

end Block

end Reckoner
