import Reckoner.Program
import Reckoner.Program.Builtin

/-!
# Evaluation

Calling a function carries out its body, or the builtin of its name if it has none.  At most
`maxDepth` bodies are being carried out at any time; the number of further levels that are allowed
goes down by one at each, and that is the recursion.  Evaluation does not depend on bodies being
well formed: a read of nothing gives a NaN, and a body without a return is an error.
-/

namespace Reckoner

/-- The value of a read that finds nothing. -/
def unset : Float := 0.0 / 0.0

def Operand.value (args : List Float) (temps : Array Float) : Operand → Float
  | .const value => value
  | .param i => args[i]?.getD unset
  | .temp t => temps[t]?.getD unset

/-- A function that instructions can call. -/
abbrev Callee := FuncId → List Float → Eval Float

namespace Block

/-- Carries out a block up to its first return.  `temps` holds the results so far. -/
def run (call : Callee) (args : List Float) (temps : Array Float) : Block → Eval (Option Float)
  | [] => pure none
  | .ret value :: _ => pure (some (value.value args temps))
  | .arith op left right :: rest =>
    run call args (temps.push (op.apply (left.value args temps) (right.value args temps))) rest
  | .lessThan left right :: rest =>
    run call args (temps.push (comparison (left.value args temps) (right.value args temps))) rest
  | .widen flag :: rest => run call args (temps.push (flag.value args temps)) rest
  | .nop :: rest => run call args (temps.push unset) rest
  | .call callee operands :: rest => do
    let result ← call callee (operands.map (·.value args temps))
    run call args (temps.push result) rest

end Block

namespace Program

/-- How many bodies may be carried out inside one another. -/
def maxDepth : Nat := 256

/-- Calls a function, its body calling others by `inner`; without `inner` no body may be entered
any more. -/
def enter (p : Program) (inner : Option Callee) : Callee := fun id args =>
  match p.func? id with
  | none => throw .missingFunction
  | some f =>
    match f.body, inner with
    | none, _ => Builtin.call f.name args
    | some _, none => throw (.tooDeep f.name)
    | some body, some call => do
      match ← body.run call args #[] with
      | some value => pure value
      | none => throw (.missingReturn f.name)

/-- Calls a function with at most `depth` bodies inside one another. -/
def callWithin (p : Program) : Nat → Callee
  | 0 => p.enter none
  | depth + 1 => p.enter (some (p.callWithin depth))

@[simp]
theorem callWithin_zero (p : Program) : p.callWithin 0 = p.enter none := rfl

theorem callWithin_succ (p : Program) (depth : Nat) :
    p.callWithin (depth + 1) = p.enter (some (p.callWithin depth)) := rfl

def call (p : Program) : Callee :=
  p.callWithin maxDepth

end Program

end Reckoner
