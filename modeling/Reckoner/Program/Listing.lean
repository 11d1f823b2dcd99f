import Reckoner.Decimal.Layout
import Reckoner.Program

/-!
# Listings

The text of a program: its functions in the order of their numbers, a declaration on one line, a
definition with one instruction a line.  Instructions that were removed are not listed, and the
others keep their numbers.
-/

namespace Reckoner

namespace Program

/-- An operand in the body of `f`.  A parameter is written by its name. -/
def operandText (f : Func) : Operand → String
  | .const value => Decimal.Layout.literal.text value
  | .param i =>
    match f.params[i]? with
    | some name => "%" ++ name
    | none => "%arg" ++ toString i
  | .temp t => "%t" ++ toString t

def calleeText (p : Program) (callee : FuncId) : String :=
  (p.func? callee).elim "<removed>" Func.symbol

/-- The instruction with temporary `i` of the body of `f`, without its place on a line. -/
def instText? (p : Program) (f : Func) (i : Nat) : Inst → Option String
  | .arith op left right =>
    some ("%t" ++ toString i ++ " = " ++ op.mnemonic ++ " double " ++ operandText f left ++ ", " ++
      operandText f right)
  | .lessThan left right =>
    some ("%t" ++ toString i ++ " = fcmp ult double " ++ operandText f left ++ ", " ++
      operandText f right)
  | .widen flag =>
    some ("%t" ++ toString i ++ " = uitofp i1 " ++ operandText f flag ++ " to double")
  | .call callee args =>
    some ("%t" ++ toString i ++ " = call double @" ++ p.calleeText callee ++ "(" ++
      String.intercalate ", " (args.map fun a => "double " ++ operandText f a) ++ ")")
  | .ret value => some ("ret double " ++ operandText f value)
  | .nop => none

/-- The lines of a body whose first instruction has the temporary `i`. -/
def bodyLines (p : Program) (f : Func) (i : Nat) : Block → List String
  | [] => []
  | inst :: rest =>
    match p.instText? f i inst with
    | some text => ("  " ++ text ++ "\n") :: bodyLines p f (i + 1) rest
    | none => bodyLines p f (i + 1) rest

def headText (f : Func) : String :=
  "double @" ++ f.symbol ++ "(" ++
    String.intercalate ", " (f.params.map fun name => "double %" ++ name) ++ ")"

def funcText (p : Program) (f : Func) : String :=
  match f.body with
  | none => "declare " ++ headText f ++ "\n"
  | some body =>
    "define " ++ headText f ++ " \x7b\nentry:\n" ++ String.join (p.bodyLines f 0 body) ++ "\x7d\n"

/-- The listing of one function, empty if there is none. -/
def funcListing (p : Program) (id : FuncId) : String :=
  (p.func? id).elim "" p.funcText

def listing (p : Program) : String :=
  "; ModuleID = '" ++ p.name ++ "'\n" ++
    String.join (p.funcs.map fun (_, f) => "\n" ++ p.funcText f)

end Program

end Reckoner
