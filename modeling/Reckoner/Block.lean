/-!
# Blocks of instructions

The body of a function is a single block: instructions that are carried out in order, the result
of the `i`th being the temporary `i`.  Every value is a double; a comparison gives a flag, which
has to be widened before it is used as a value.  An instruction that has been removed leaves a
`nop` behind, so that the temporaries after it keep their numbers.
-/

namespace Reckoner

/-- The number of a declared function.  A program never hands out a number twice. -/
structure FuncId where
  index : Nat
deriving DecidableEq

inductive Operand
  | const (value : Float)
  | param (index : Nat)
  | temp (index : Nat)
deriving DecidableEq

inductive ArithOp
  | add
  | sub
  | mul
  | div
deriving DecidableEq

inductive Inst
  | arith (op : ArithOp) (left right : Operand)
  | lessThan (left right : Operand)
  | widen (flag : Operand)
  | call (callee : FuncId) (args : List Operand)
  | ret (value : Operand)
  | nop
deriving DecidableEq

abbrev Block := List Inst

namespace ArithOp

def ofChar? : Char → Option ArithOp
  | '+' => some .add
  | '-' => some .sub
  | '*' => some .mul
  | '/' => some .div
  | _ => none

def apply (op : ArithOp) (a b : Float) : Float :=
  match op with
  | .add => a + b
  | .sub => a - b
  | .mul => a * b
  | .div => a / b

def mnemonic : ArithOp → String
  | .add => "fadd"
  | .sub => "fsub"
  | .mul => "fmul"
  | .div => "fdiv"

end ArithOp

/-- The value of `a < b`: one if `a` is less or the two are not ordered, zero otherwise. -/
def comparison (a b : Float) : Float :=
  if a < b || a.isNaN || b.isNaN then 1 else 0

namespace Inst

/-- What the instruction reads, in the order it is written. -/
def operands : Inst → List Operand
  | .arith _ left right => [left, right]
  | .lessThan left right => [left, right]
  | .widen flag => [flag]
  | .call _ args => args
  | .ret value => [value]
  | .nop => []

def mapOperands (f : Operand → Operand) : Inst → Inst
  | .arith op left right => .arith op (f left) (f right)
  | .lessThan left right => .lessThan (f left) (f right)
  | .widen flag => .widen (f flag)
  | .call callee args => .call callee (args.map f)
  | .ret value => .ret (f value)
  | .nop => .nop

theorem operands_mapOperands (f : Operand → Operand) (i : Inst) :
    (i.mapOperands f).operands = i.operands.map f := by
  cases i <;> rfl

theorem mapOperands_id (i : Inst) : i.mapOperands id = i := by
  cases i <;> simp [mapOperands]

/-- The instruction reads the temporary `t`. -/
def reads (i : Inst) (t : Nat) : Bool :=
  i.operands.contains (.temp t)

/-- The instruction has no effect but its result. -/
def isPure : Inst → Bool
  | .arith .. => true
  | .lessThan .. => true
  | .widen _ => true
  | _ => false

@[simp]
theorem isPure_mapOperands (f : Operand → Operand) (i : Inst) :
    (i.mapOperands f).isPure = i.isPure := by
  cases i <;> rfl

end Inst

end Reckoner
