import Reckoner.Proofs.Lowering.Meaning
import Reckoner.Proofs.Session.Engine

/-!
# The reference session

A session that compiles nothing.  All it keeps is a table from names to parameters and, for what
has been defined, the expression of the body.  Expressions are evaluated as they stand, and a
callee is looked up by its name when it is called: with a body it is entered, which at most
`Program.maxDepth` bodies may be inside one another, and without one it is the builtin of its
name.  An expression that stands by itself is the outermost of these bodies.
-/

namespace Reckoner

/-- The parameters of a function, and its body once it has been defined. -/
structure Entry where
  params : List String
  body : Option Expr

abbrev Table := String → Option Entry

namespace Table

def empty : Table := fun _ => none

def insert (t : Table) (name : String) (entry : Entry) : Table :=
  fun m => if m = name then some entry else t m

def arity? (t : Table) (name : String) : Option Nat :=
  (t name).map fun entry => entry.params.length

/-- Calls a function by its name, its body calling others by `inner`; without `inner` no body may
be entered any more. -/
def enter (t : Table) (inner : Option NamedCallee) : NamedCallee := fun name args =>
  match t name with
  | some ⟨params, some body⟩ =>
    match inner with
    | some call => body.eval call (binding params args)
    | none => throw (.tooDeep name)
  | _ => Builtin.call name args

/-- Calls a function with at most `depth` bodies inside one another. -/
def callWithin (t : Table) : Nat → NamedCallee
  | 0 => t.enter none
  | depth + 1 => t.enter (some (t.callWithin depth))

/-- Gives a name a body, unless the body has a fault.  The function may call itself. -/
def place (t : Table) (d : Definition) (params : List String) : Option CompileError × Table :=
  match d.body.fault? (t.insert d.proto.name ⟨params, none⟩).arity? params with
  | some e => (some e, t)
  | none => (none, t.insert d.proto.name ⟨params, some d.body⟩)

/-- A name is defined once, and under its declared parameters if it has been declared. -/
def define (t : Table) (d : Definition) : Option CompileError × Table :=
  match t d.proto.name with
  | some ⟨_, some _⟩ => (some (.redefinition d.proto.name), t)
  | some ⟨params, none⟩ => t.place d params
  | none => t.place d d.proto.params

/-- A name may be declared again with as many parameters. -/
def declare (t : Table) (proto : Prototype) : Option CompileError × Table :=
  match t proto.name with
  | some entry =>
    if entry.params.length = proto.params.length then (none, t)
    else (some (.redefinition proto.name), t)
  | none => (none, t.insert proto.name ⟨proto.params, none⟩)

def evaluate (t : Table) (d : Definition) :
    Except CompileError (EStateM.Result ExecError Sink Float) × Table :=
  match d.body.fault? t.arity? [] with
  | some e => (.error e, t)
  | none =>
    (.ok (d.body.eval (t.callWithin (Program.maxDepth - 1)) (binding [] []) .unlimited), t)

def engine : Engine Table := { define, declare, evaluate }

end Table

end Reckoner
