import Reckoner.Lowering
import Reckoner.Program.Cleanup

/-!
# Compiling units

A compiler holds the program built so far.  Declaring and defining each name the function they
are about, or fail and leave the program as it was, but for the number that a new function has
used up.  A function that is declared already is defined under its declared parameters, whatever
parameters the definition writes.
-/

namespace Reckoner

structure Compiler where
  program : Program
  /-- What the names in the body compiled last stand for. -/
  scope : Scope := []
  /-- Bodies are cleaned up once they are well formed. -/
  cleaning : Bool := true
deriving DecidableEq

/-- The outcome of compiling a unit, the compiler it leaves, and the notices on the way. -/
structure Compiled where
  outcome : Except CompileError FuncId
  compiler : Compiler
  notices : List Notice

namespace Compiled

/-- Puts notices before those of a compilation. -/
def after (r : Compiled) (ns : List Notice) : Compiled :=
  { r with notices := ns ++ r.notices }

@[simp]
theorem compiler_after (r : Compiled) (ns : List Notice) : (r.after ns).compiler = r.compiler :=
  rfl

end Compiled

namespace Compiler

def new (name : String) (cleaning : Bool) : Compiler :=
  { program := .empty name, cleaning }

/-- Declares a function.  A name that stands for a function of the same arity stands for it
still. -/
def declare (c : Compiler) (proto : Prototype) : Compiled :=
  match c.program.lookup proto.name with
  | some id =>
    if c.program.arity id = proto.params.length then ⟨.ok id, c, []⟩
    else ⟨.error (.redefinition proto.name), c, []⟩
  | none =>
    let (id, program) := c.program.declare proto.name proto.params
    ⟨.ok id, { c with program }, [.declaring proto]⟩

/-- Gives up the body of a function that was `reused` or else declared for it alone. -/
def abandon (c : Compiler) (id : FuncId) (proto : Prototype) (reused : Bool)
    (e : CompileError) : Compiled :=
  if reused then ⟨.error e, { c with program := c.program.clear id }, [.rollingBack proto]⟩
  else ⟨.error e, { c with program := c.program.remove id }, [.discarding proto]⟩

/-- Takes up a body that was put in place. -/
def accept (c : Compiler) (id : FuncId) (proto : Prototype) : Compiled :=
  if c.cleaning then
    ⟨.ok id, { c with program := c.program.cleanup id },
      c.program.cleanupNotices id ++ [.compiled proto]⟩
  else ⟨.ok id, c, [.compiled proto]⟩

/-- Builds the body of a function that has none. -/
def build (c : Compiler) (id : FuncId) (d : Definition) (reused : Bool) : Compiled :=
  let begun : Compiler :=
    { c with program := c.program.begin id, scope := Scope.ofParams (c.program.params id) }
  match d.body.lower begun.program begun.scope 0 with
  | .error e => begun.abandon id d.proto reused e
  | .ok code =>
    let (placed, program) := (begun.program.append code.insts).finish code.value
    let built : Compiler := { begun with program }
    let notices := Program.finishNotices placed ++ program.verifyNotices id
    if program.verify id then (built.accept id d.proto).after notices
    else (built.abandon id d.proto reused (.invalidFunction d.proto.name)).after notices

/-- Defines a function: a new one, or one that is declared and has no body yet. -/
def define (c : Compiler) (d : Definition) : Compiled :=
  match c.program.lookup d.proto.name with
  | some id =>
    if c.program.hasBody id then ⟨.error (.redefinition d.proto.name), c, []⟩
    else c.build id d true
  | none =>
    let (id, program) := c.program.declare d.proto.name d.proto.params
    ({ c with program }.build id d false).after [.declaring d.proto]

end Compiler

end Reckoner
