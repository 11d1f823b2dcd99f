import Reckoner.Program

/-!
# Well-formed bodies

A body is well formed if it ends with its only return, reads only parameters and earlier
temporaries that have a value, uses flags for nothing but widening, and calls functions that
exist with as many arguments as they take.  `Program.check` gives the first defect of a body that
is not; a constant may be widened, since that is what a folded comparison becomes.
-/

namespace Reckoner

/-- What the result of an instruction is. -/
inductive ResultKind
  | double
  | flag
  | nothing
deriving DecidableEq

/-- Why a body is not well formed.  `at` is the number of the instruction. -/
inductive Defect
  | noBody
  | paramOutOfRange (index : Nat)
  | noValue (temp : Nat)
  | undefinedTemp (temp : Nat)
  | flagOperand (inst : Nat)
  | widenedDouble (inst : Nat)
  | removedCallee (inst : Nat)
  | argumentCount (inst : Nat) (callee : String)
  | flagArgument (inst : Nat)
  | earlyReturn
  | flagReturned
  | notTerminated
deriving DecidableEq

def Defect.message : Defect → String
  | .noBody => "function has no body"
  | .paramOutOfRange i => "parameter " ++ toString i ++ " out of range"
  | .noValue t => "%t" ++ toString t ++ " has no value"
  | .undefinedTemp t => "%t" ++ toString t ++ " used before definition"
  | .flagOperand i => "%t" ++ toString i ++ ": operand is not a double"
  | .widenedDouble i => "%t" ++ toString i ++ ": widening a non-boolean"
  | .removedCallee i => "%t" ++ toString i ++ ": call to a removed function"
  | .argumentCount i callee => "%t" ++ toString i ++ ": wrong argument count for @" ++ callee
  | .flagArgument i => "%t" ++ toString i ++ ": argument is not a double"
  | .earlyReturn => "ret is not the last instruction"
  | .flagReturned => "returning a non-double"
  | .notTerminated => "block is not terminated"

/-- What an operand is, after instructions with results of the given kinds, in a function of the
given arity.  A result of kind `nothing` cannot be read. -/
def Operand.kind (arity : Nat) (kinds : Array ResultKind) : Operand → Except Defect ResultKind
  | .const _ => .ok .double
  | .param i => if i < arity then .ok .double else .error (.paramOutOfRange i)
  | .temp t =>
    match kinds[t]? with
    | some .nothing => .error (.noValue t)
    | some kind => .ok kind
    | none => .error (.undefinedTemp t)

/-- All operands are doubles; for the first that is a flag the error is `defect`. -/
def checkDoubles (arity : Nat) (kinds : Array ResultKind) (defect : Defect) :
    List Operand → Except Defect Unit
  | [] => .ok ()
  | o :: os =>
    match o.kind arity kinds with
    | .error e => .error e
    | .ok .double => checkDoubles arity kinds defect os
    | .ok _ => .error defect

namespace Program

/-- What the result of an instruction is, if the instruction is in order where it stands.  A
return is in order only at the end, which `checkFrom` sees to. -/
def resultKind (p : Program) (arity : Nat) (kinds : Array ResultKind) (inst : Inst) :
    Except Defect ResultKind :=
  match inst with
  | .arith _ left right =>
    (checkDoubles arity kinds (.flagOperand kinds.size) [left, right]).map fun _ => .double
  | .lessThan left right =>
    (checkDoubles arity kinds (.flagOperand kinds.size) [left, right]).map fun _ => .flag
  | .widen flag =>
    match flag, flag.kind arity kinds with
    | _, .error e => .error e
    | .const _, .ok _ => .ok .double
    | _, .ok .flag => .ok .double
    | _, .ok _ => .error (.widenedDouble kinds.size)
  | .call callee args =>
    match p.func? callee with
    | none => .error (.removedCallee kinds.size)
    | some f =>
      if f.params.length ≠ args.length then .error (.argumentCount kinds.size f.symbol)
      else (checkDoubles arity kinds (.flagArgument kinds.size) args).map fun _ => .double
  | .ret _ => .error .earlyReturn
  | .nop => .ok .nothing

/-- Checks the rest of a body, given the kinds of the results before it. -/
def checkFrom (p : Program) (arity : Nat) (kinds : Array ResultKind) : Block → Except Defect Unit
  | [] => .error .notTerminated
  | [.ret value] => checkDoubles arity kinds .flagReturned [value]
  | inst :: rest =>
    match p.resultKind arity kinds inst with
    | .error e => .error e
    | .ok kind => checkFrom p arity (kinds.push kind) rest

def check (p : Program) (f : Func) : Except Defect Unit :=
  match f.body with
  | none => .error .noBody
  | some body => p.checkFrom f.params.length #[] body

/-- The verdict on a function: that there is none, or what `check` says of it. -/
def verdict? (p : Program) (id : FuncId) : Option (Func × Except Defect Unit) :=
  (p.func? id).map fun f => (f, p.check f)

/-- The function is there and its body is well formed. -/
def verify (p : Program) (id : FuncId) : Bool :=
  match p.verdict? id with
  | some (_, .ok _) => true
  | _ => false

end Program

end Reckoner
