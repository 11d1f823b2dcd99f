import Reckoner.Expr
import Reckoner.Program

/-!
# Lowering expressions

An expression becomes instructions that leave its value in an operand.  Operands and arguments
are lowered from left to right, each once.  What can be wrong is found on the way, so the error
is that of the first fault: operands come before their operator, and a call is checked for its
callee and the number of its arguments before the arguments themselves.
-/

namespace Reckoner

inductive CompileError
  | unknownVariable (name : String)
  | invalidOperator (op : Char)
  | unknownFunction (name : String)
  | arityMismatch (callee : String) (expected found : Nat)
  | redefinition (name : String)
  | invalidFunction (name : String)
deriving DecidableEq

def CompileError.message : CompileError → String
  | .unknownVariable name => "unknown variable referenced " ++ name
  | .invalidOperator op => "invalid binary operator " ++ op.toString
  | .unknownFunction name => "unknown function referenced " ++ name
  | .arityMismatch callee expected found =>
    "incorrect number of arguments for " ++ callee ++ ": expected " ++ toString expected ++
      ", found " ++ toString found
  | .redefinition name => "function " ++ name ++ " cannot be redefined"
  | .invalidFunction name => "failed to verify function " ++ name

/-- What the names in a body stand for, each name once. -/
abbrev Scope := List (String × Operand)

/-- The scope of a function: a name that stands for several parameters means the last. -/
def Scope.ofParams (params : List String) : Scope :=
  params.zipIdx.foldl (fun scope (name, i) => (name, .param i) :: scope.filter (·.1 ≠ name)) []

/-- Instructions, and the operand that holds their value. -/
structure Code where
  insts : Block
  value : Operand
deriving DecidableEq

/-- The instructions of a list of expressions, and the operands that hold their values. -/
structure ArgsCode where
  insts : Block
  values : List Operand
deriving DecidableEq

/-- Code followed by one more instruction, whose temporary is the value; `start` is the first
temporary of the code. -/
def Code.ending (start : Nat) (insts : Block) (last : Inst) : Code :=
  ⟨insts ++ [last], .temp (start + insts.length)⟩

namespace Expr

/-- The instruction for an arithmetic operator, or the two for a comparison. -/
def lowerBinary (start : Nat) (op : Char) (left right : Operand) (insts : Block) :
    Except CompileError Code :=
  if op = '<' then
    let compared := Code.ending start insts (.lessThan left right)
    .ok (Code.ending start compared.insts (.widen compared.value))
  else
    match ArithOp.ofChar? op with
    | some arith => .ok (Code.ending start insts (.arith arith left right))
    | none => .error (.invalidOperator op)

mutual

/-- Lowers an expression.  `start` is the number of the first temporary that is free. -/
def lower (p : Program) (scope : Scope) (start : Nat) : Expr → Except CompileError Code
  | .literal value => .ok ⟨[], .const value⟩
  | .var name =>
    match scope.lookup name with
    | some operand => .ok ⟨[], operand⟩
    | none => .error (.unknownVariable name)
  | .binary op left right => do
    let l ← lower p scope start left
    let r ← lower p scope (start + l.insts.length) right
    lowerBinary start op l.value r.value (l.insts ++ r.insts)
  | .call callee args =>
    match p.lookup callee with
    | none => .error (.unknownFunction callee)
    | some id =>
      if p.arity id ≠ args.length then
        .error (.arityMismatch callee (p.arity id) args.length)
      else do
        let a ← lowerArgs p scope start args
        .ok (Code.ending start a.insts (.call id a.values))

/-- Lowers expressions one after another. -/
def lowerArgs (p : Program) (scope : Scope) (start : Nat) :
    List Expr → Except CompileError ArgsCode
  | [] => .ok ⟨[], []⟩
  | e :: es => do
    let head ← lower p scope start e
    let tail ← lowerArgs p scope (start + head.insts.length) es
    .ok ⟨head.insts ++ tail.insts, head.value :: tail.values⟩

end

end Expr

end Reckoner
