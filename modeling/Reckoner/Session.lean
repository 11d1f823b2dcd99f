import Reckoner.Compiler
import Reckoner.Journal
import Reckoner.Program.Evaluation
import Reckoner.Program.Listing
import Reckoner.Session.Reader
import Reckoner.Token.Traced

/-!
# Sessions

A session deals with the items of a reader in turn.  It compiles definitions and declarations,
evaluates expressions, and reports what fails, in which case the next item is dealt with as if
nothing had been there.  Only a failing output ends a session early.

What a session produces are three things: its output, its journal with the diagnostics, and the
count of units and errors.  An expression is compiled to a function without a name, which is
called and then removed.
-/

namespace Reckoner

structure SessionOptions where
  /-- List every function that is compiled, and the whole program at the end. -/
  listing : Bool := false
  /-- Write every unit that is well formed. -/
  units : Bool := false
  /-- Ask for every unit. -/
  prompting : Bool := false
  /-- Report at the end that reading the input has failed. -/
  watching : Bool := true
deriving DecidableEq

structure Tally where
  units : Nat := 0
  errors : Nat := 0
deriving DecidableEq

structure Session where
  options : SessionOptions
  compiler : Compiler
  out : Sink := .unlimited
  journal : Journal := {}
  tally : Tally := {}
  /-- The failure that ended the input, if the end has been reached and one did. -/
  inputFailure : Option String := none
deriving DecidableEq

/-- An action of a session, which the output may end. -/
abbrev SessionM := EStateM SinkFull Session

namespace Session

def write (text : String) : SessionM Unit := fun s =>
  match Sink.writeText text s.out with
  | .ok _ out => .ok () { s with out }
  | .error e out => .error e { s with out }

/-- Writes to the output if `wanted`. -/
def writeIf (wanted : Bool) (text : String) : SessionM Unit :=
  if wanted then write text else pure ()

def note (ns : List Notice) : SessionM Unit :=
  modify fun s => { s with journal := s.journal.addNotices ns }

/-- Writes a diagnostic, which counts as an error. -/
def report (message : String) : SessionM Unit :=
  modify fun s =>
    { s with
      journal := s.journal.addText ("error: " ++ message ++ "\n")
      tally := { s.tally with errors := s.tally.errors + 1 } }

def prompt : SessionM Unit :=
  modify fun s =>
    if s.options.prompting then { s with journal := s.journal.addText "ready> " } else s

def countUnit : SessionM Unit :=
  modify fun s => { s with tally := { s.tally with units := s.tally.units + 1 } }

/-- Takes over the result of the compiler on a unit. -/
def adopt (compile : Compiler → Compiled) : SessionM (Except CompileError FuncId) := fun s =>
  let r := compile s.compiler
  .ok r.outcome
    { s with compiler := r.compiler, journal := s.journal.addNotices r.notices }

/-- Lists a function that has been compiled. -/
def list (id : FuncId) : SessionM Unit := do
  let s ← get
  writeIf s.options.listing (s.compiler.program.funcListing id)

/-- Calls a function without arguments.  What it writes goes to the journal. -/
def evaluate (id : FuncId) : SessionM (Except ExecError Float) := fun s =>
  match s.compiler.program.call id [] .unlimited with
  | .ok value sink => .ok (.ok value) { s with journal := s.journal.addBytes sink.bytes }
  | .error e sink => .ok (.error e) { s with journal := s.journal.addBytes sink.bytes }

def remove (id : FuncId) : SessionM Unit :=
  modify fun s =>
    { s with compiler := { s.compiler with program := s.compiler.program.remove id } }

def define (d : Definition) : SessionM Unit := do
  countUnit
  note [.parsedDefinition d.proto]
  writeIf (← get).options.units (d.text ++ "\n")
  match ← adopt (·.define d) with
  | .ok id =>
    note [.defined d.proto]
    list id
  | .error e => report e.message

def declare (p : Prototype) : SessionM Unit := do
  countUnit
  note [.parsedDeclaration p]
  writeIf (← get).options.units ("extern " ++ p.text ++ "\n")
  match ← adopt (·.declare p) with
  | .ok id =>
    note [.declared p]
    list id
  | .error e => report e.message

def express (d : Definition) : SessionM Unit := do
  countUnit
  note [.parsedExpression d.body]
  writeIf (← get).options.units (d.text ++ "\n")
  match ← adopt (·.define d) with
  | .error e => report e.message
  | .ok id =>
    list id
    let result ← evaluate id
    remove id
    match result with
    | .ok value =>
      note [.evaluated d.body]
      write ("Evaluated to " ++ Decimal.Layout.plain.text value ++ "\n")
    | .error e => report e.message

def finish (failure : Option String) : SessionM Unit := do
  modify fun s => { s with inputFailure := failure }
  let s ← get
  match s.options.watching, failure with
  | true, some message => report ("failed to read input: " ++ message)
  | _, _ => pure ()
  writeIf s.options.listing s.compiler.program.listing

def handle : Item → SessionM Unit
  | .prompt => prompt
  | .malformed e => report e.message
  | .fault e => do
    countUnit
    report e.message
  | .definition d => define d
  | .declaration p => declare p
  | .expression d => express d
  | .finished failure => finish failure

/-- Deals with an item after noting how it was read. -/
def step (notices : List Notice) (item : Item) : SessionM Unit := do
  note notices
  handle item

/-- Deals with all items of a reader.  The notices of reading from number `seen` on are passed on
with the item that they led to. -/
def runFrom {σ : Type} [TokenSupply σ] (seen : Nat) (r : Reader (Traced σ)) : SessionM Unit :=
  match _h : r.next with
  | none => pure ()
  | some (item, r') => do
    let trace := r'.parser.supply.trace
    step (trace.extract seen trace.size).toList item
    runFrom trace.size r'
termination_by r.weight
decreasing_by exact Reader.weight_next_lt _h

/-- Deals with all that a supply has to offer. -/
def run {σ : Type} [TokenSupply σ] (supply : σ) : SessionM Unit :=
  runFrom 0 (Reader.start ⟨supply, #[]⟩)

end Session

end Reckoner
