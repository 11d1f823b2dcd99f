import Reckoner.Block

/-!
# Programs

A program is a store of functions.  A function has a name, parameters, and a body once it has
been built; without one it is a declaration.  Functions are numbered in the order they were
declared, and the number of a removed function stays unused (`slots`).  The name table leads from
a name to the function last declared under it, as long as that one has not been removed.

A body is built outside the store: `begin` names the function it is for, `push` and `append` add
instructions, and `finish` adds the return and puts the body in its place.  A body that is
abandoned never reaches the store.
-/

namespace Reckoner

structure Func where
  name : String
  params : List String
  body : Option Block
deriving DecidableEq

/-- How a function is called in listings. -/
def Func.symbol (f : Func) : String :=
  if f.name = "" then "__anon_expr" else f.name

structure Program where
  name : String
  /-- The function of each number handed out, `none` where it was removed. -/
  slots : Array (Option Func)
  names : List (String × FuncId)
  /-- The function whose body is being built. -/
  building : Option FuncId
  /-- The body being built, without its return. -/
  block : Block
deriving DecidableEq

namespace Program

def empty (name : String) : Program :=
  { name, slots := #[], names := [], building := none, block := [] }

/-- The function with the given number, unless there is none or it was removed. -/
def func? (p : Program) (id : FuncId) : Option Func :=
  p.slots[id.index]?.join

/-- The functions that have not been removed, in the order of their numbers. -/
def funcs (p : Program) : List (FuncId × Func) :=
  p.slots.toList.zipIdx.filterMap fun (slot, i) => slot.map fun f => (⟨i⟩, f)

/-- The function that a name stands for. -/
def lookup (p : Program) (name : String) : Option FuncId :=
  p.names.lookup name

def params (p : Program) (id : FuncId) : List String :=
  (p.func? id).elim [] Func.params

def arity (p : Program) (id : FuncId) : Nat :=
  (p.params id).length

def body? (p : Program) (id : FuncId) : Option Block :=
  (p.func? id).bind Func.body

def hasBody (p : Program) (id : FuncId) : Bool :=
  (p.body? id).isSome

/-- Replaces the body of a function; without such a function nothing changes. -/
def setBody (p : Program) (id : FuncId) (body : Option Block) : Program :=
  { p with slots := p.slots.modify id.index fun slot => slot.map fun f => { f with body } }

/-- Replaces a body that is there already. -/
def replaceBody? (p : Program) (id : FuncId) (body : Block) : Option Program :=
  if p.hasBody id then some (p.setBody id (some body)) else none

/-- Adds a function without a body under the next number.  The name stands for it from now on,
whatever it stood for before. -/
def declare (p : Program) (name : String) (params : List String) : FuncId × Program :=
  let id : FuncId := ⟨p.slots.size⟩
  (id,
    { p with
      slots := p.slots.push (some ⟨name, params, none⟩)
      names := (name, id) :: p.names.filter (·.1 ≠ name) })

/-- Begins a new body for a function, and drops the one being built. -/
def begin (p : Program) (id : FuncId) : Program :=
  { p with building := some id, block := [] }

/-- Adds instructions to the body being built. -/
def append (p : Program) (code : Block) : Program :=
  { p with block := p.block ++ code }

/-- Adds one instruction to the body being built, and gives its temporary. -/
def push (p : Program) (inst : Inst) : Operand × Program :=
  (.temp p.block.length, p.append [inst])

/-- Ends the body being built with a return.  It becomes the body of the function it was begun
for, if there is one; the flag says whether there was. -/
def finish (p : Program) (value : Operand) : Bool × Program :=
  let block := p.block ++ [.ret value]
  let idle := { p with building := none, block := [] }
  match p.building with
  | some id => ((p.func? id).isSome, idle.setBody id (some block))
  | none => (false, idle)

/-- Drops the body of a function, also if it is still being built. -/
def clear (p : Program) (id : FuncId) : Program :=
  let p := if p.building = some id then { p with building := none, block := [] } else p
  p.setBody id none

/-- Removes a function, and its name if that still stands for it. -/
def remove (p : Program) (id : FuncId) : Program :=
  let cleared := p.clear id
  match p.func? id with
  | none => cleared
  | some f =>
    { cleared with
      slots := cleared.slots.modify id.index fun _ => none
      names :=
        if p.lookup f.name = some id then cleared.names.filter (·.1 ≠ f.name)
        else cleared.names }

end Program

end Reckoner
