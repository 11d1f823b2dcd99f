import Reckoner.Decimal.Layout
import Reckoner.Sink

/-!
# Builtin functions

The functions that a declaration without a body can stand for, and the errors of evaluation.
Two of them write: `putchard` one byte, the argument cut to the range of a byte, and `printd`
the number on a line of its own.  Both give zero.
-/

namespace Reckoner

inductive ExecError
  | missingFunction
  | unresolvedExtern (name : String)
  | builtinArity (name : String) (expected found : Nat)
  | tooDeep (name : String)
  | missingReturn (name : String)
  | output (e : SinkFull)
deriving DecidableEq

def ExecError.message : ExecError → String
  | .missingFunction => "call to a function that was removed from the module"
  | .unresolvedExtern name => "extern " ++ name ++ " has no definition"
  | .builtinArity name expected found =>
    name ++ " takes " ++ toString expected ++ " argument(s), found " ++ toString found
  | .tooDeep name => "call depth limit exceeded while evaluating " ++ name
  | .missingReturn name => name ++ " fell off the end of its body"
  | .output e => "failed to write output: " ++ e.message

/-- A computation that writes to a sink and may fail; what was written stays written. -/
abbrev Eval := EStateM ExecError Sink

inductive Builtin
  | unary (f : Float → Float)
  | binary (f : Float → Float → Float)
  | putByte
  | printNumber

namespace Builtin

def ofName? : String → Option Builtin
  | "sin" => some (.unary Float.sin)
  | "cos" => some (.unary Float.cos)
  | "tan" => some (.unary Float.tan)
  | "sqrt" => some (.unary Float.sqrt)
  | "exp" => some (.unary Float.exp)
  | "log" => some (.unary Float.log)
  | "fabs" => some (.unary Float.abs)
  | "floor" => some (.unary Float.floor)
  | "ceil" => some (.unary Float.ceil)
  | "pow" => some (.binary Float.pow)
  | "putchard" => some .putByte
  | "printd" => some .printNumber
  | _ => none

def arity : Builtin → Nat
  | .binary _ => 2
  | _ => 1

/-- Writes to the sink of an evaluation. -/
def emit (bytes : Array UInt8) : Eval Unit := fun s =>
  match Sink.write bytes s with
  | .ok _ s' => .ok () s'
  | .error e s' => .error (.output e) s'

/-- Calls the builtin that `name` stands for. -/
def call (name : String) (args : List Float) : Eval Float :=
  match ofName? name with
  | none => throw (.unresolvedExtern name)
  | some builtin =>
    match builtin, args with
    | .unary f, [x] => pure (f x)
    | .binary f, [x, y] => pure (f x y)
    | .putByte, [x] => do
      emit #[x.toUInt8]
      pure 0
    | .printNumber, [x] => do
      emit (utf8 (Decimal.Layout.plain.text x ++ "\n"))
      pure 0
    | _, _ => throw (.builtinArity name builtin.arity args.length)

end Builtin

end Reckoner
