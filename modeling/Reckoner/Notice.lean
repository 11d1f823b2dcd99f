import Reckoner.Expr
import Reckoner.Program.Check
import Reckoner.Token

/-!
# Notices

What the parts of the program tell about their work, besides their results.  A notice has a
level of detail, the part it comes from, and a text.  Whoever collects notices shows those up to
some level.
-/

namespace Reckoner

/-- How much detail a notice is, the most urgent first. -/
inductive Level
  | error
  | warn
  | info
  | debug
  | trace
deriving DecidableEq

namespace Level

def rank : Level → Nat
  | .error => 1
  | .warn => 2
  | .info => 3
  | .debug => 4
  | .trace => 5

def name : Level → String
  | .error => "ERROR"
  | .warn => "WARN"
  | .info => "INFO"
  | .debug => "DEBUG"
  | .trace => "TRACE"

end Level

/-- The part of the program that a notice comes from. -/
inductive Origin
  | commandLine
  | session
  | parser
  | compiler
  | program
  | cleanup
deriving DecidableEq

/-- The name under which the notices of a part are shown and selected. -/
def Origin.path : Origin → String
  | .commandLine => "kaleidoscope_jit"
  | .session => "kaleidoscope_jit::driver"
  | .parser => "kaleidoscope_jit::parser"
  | .compiler => "kaleidoscope_jit::codegen"
  | .program => "kaleidoscope_jit::ir"
  | .cleanup => "kaleidoscope_jit::opt"

structure Notice where
  level : Level
  origin : Origin
  text : String
deriving DecidableEq

namespace Notice

/-- The parser has taken a token. -/
def token (t : Token) : Notice :=
  ⟨.trace, .parser, "token " ++ t.description⟩

def parsedDefinition (p : Prototype) : Notice :=
  ⟨.debug, .parser, "parsed definition of " ++ p.text⟩

def parsedDeclaration (p : Prototype) : Notice :=
  ⟨.debug, .parser, "parsed extern " ++ p.text⟩

def parsedExpression (body : Expr) : Notice :=
  ⟨.debug, .parser, "parsed top-level expression " ++ body.text⟩

/-- A failure has ended the input. -/
def inputFailed (message : String) : Notice :=
  ⟨.debug, .session, "input ended by read error: " ++ message⟩

def declaring (p : Prototype) : Notice :=
  ⟨.debug, .compiler, "declaring " ++ p.text⟩

def compiled (p : Prototype) : Notice :=
  ⟨.debug, .compiler, "defined " ++ p.text⟩

/-- A failed definition gives way to the declaration it was for. -/
def rollingBack (p : Prototype) : Notice :=
  ⟨.debug, .compiler, "rolling " ++ p.text ++ " back to its declaration"⟩

def discarding (p : Prototype) : Notice :=
  ⟨.debug, .compiler, "discarding " ++ p.text⟩

/-- A return was added while no body of an existing function was being built. -/
def strayReturn : Notice :=
  ⟨.warn, .program, "ret built without an insertion point"⟩

def illFormed (f : Func) (defect : Defect) : Notice :=
  ⟨.warn, .program, "verification of @" ++ f.symbol ++ " failed: " ++ defect.message⟩

def cleaned (folded pruned : Nat) : Notice :=
  ⟨.trace, .cleanup,
    "folded " ++ toString folded ++ " and removed " ++ toString pruned ++ " instructions"⟩

/-- The session has taken up a definition. -/
def defined (p : Prototype) : Notice :=
  ⟨.info, .session, "defined " ++ p.text⟩

def declared (p : Prototype) : Notice :=
  ⟨.info, .session, "declared extern " ++ p.text⟩

def evaluated (body : Expr) : Notice :=
  ⟨.info, .session, "evaluated " ++ body.text⟩

def compiling (path : String) : Notice :=
  ⟨.info, .commandLine, "compiling " ++ path⟩

def finished (units errors : Nat) : Notice :=
  ⟨.info, .commandLine, toString units ++ " units, " ++ toString errors ++ " errors"⟩

end Notice

end Reckoner
