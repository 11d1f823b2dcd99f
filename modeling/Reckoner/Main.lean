import Reckoner.CommandLine

/-!
# The program

Carries out a run of the command line on the real arguments, files and streams.  With a person at
the standard input the session is held item by item: an item that needs a line not yet typed is
taken back and tried again once the line is there.
-/

namespace Reckoner.CommandLine

/-- Why a file could not be read, as the operating system puts it. -/
def reasonText : IO.Error → String
  | .noFileOrDirectory .. => "No such file or directory (os error 2)"
  | .permissionDenied .. => "Permission denied (os error 13)"
  | .inappropriateType .. => "Is a directory (os error 21)"
  | e => toString e

def writeBytes (stream : IO.FS.Stream) (bytes : Array UInt8) : IO Unit := do
  if !bytes.isEmpty then
    stream.write ⟨bytes⟩
    stream.flush

/-- All that is left of a stream. -/
partial def readAll (stream : IO.FS.Stream) (before : ByteArray) : IO ByteArray := do
  let more ← stream.read 65536
  if more.isEmpty then return before else readAll stream (before ++ more)

/-- Writes what a session has produced, and forgets it. -/
def showSession (logger : Logger) (s : Session) : IO Session := do
  writeBytes (← IO.getStdout) s.out.bytes
  writeBytes (← IO.getStderr) (s.journal.render logger)
  return { s with out := .unlimited, journal := {} }

/-- One more line of what is typed: nothing at the end, a failure if it cannot be read. -/
def readLine : IO Lines := do
  try
    let line ← (← IO.getStdin).getLine
    return { bytes := (utf8 line).toList }
  catch _ =>
    return { bytes := [], failure := some Lines.invalidUtf8 }

/-- A reader whose source goes on with `more`. -/
def addLines (more : Lines) (r : Reader (Traced Lexer)) : Reader (Traced Lexer) :=
  let traced := r.parser.supply
  let source := traced.supply.source
  let lines : Lines := ⟨source.lines.bytes ++ more.bytes, more.failure⟩
  { r with
    parser := { r.parser with
      supply := { traced with
        supply := { traced.supply with source := { source with lines } } } } }

/-- Holds a session whose input is still being typed.  `ended` tells that there is no more. -/
partial def converse (logger : Logger) (seen : Nat) (r : Reader (Traced Lexer)) (ended : Bool)
    (s : Session) : IO (EStateM.Result SinkFull Session Unit) := do
  match r.next with
  | none => return .ok () s
  | some (item, r') =>
    if r'.parser.supply.supply.source.finished && !ended then
      let more ← readLine
      converse logger seen (addLines more r) (more.bytes = []) s
    else
      let trace := r'.parser.supply.trace
      match Session.step (trace.extract seen trace.size).toList item s with
      | .ok _ s => converse logger trace.size r' ended (← showSession logger s)
      | .error e s => return .error e s

/-- A run with a person at the standard input. -/
def interact (s : Settings) (logger : Logger) : IO UInt32 := do
  writeBytes (← IO.getStderr) logger.opening
  let supply : Traced Lexer := { supply := .ofSource (.ofLines { bytes := [] }) }
  let result ← converse logger 0 (.start supply) false (s.session true .unlimited {})
  let (failure, session) := conclude s result
  let _ ← showSession logger session
  writeBytes (← IO.getStderr) (utf8 (Tools.usual.failureText failure))
  return (exitCode failure).toUInt32

/-- The content of the source file, or why it cannot be read. -/
def readSource (path : String) : IO (Except String (List UInt8)) := do
  try
    return .ok (← IO.FS.readBinFile path).toList
  catch e =>
    return .error (reasonText e)

/-- What a run reads from the standard input: nothing if there is a source file, or nothing is
going to be compiled or listed. -/
def readInput (s : Settings) : IO (List UInt8) := do
  if s.input.isSome || (s.backend = .llvm && !s.dumpTokens) then return []
  return (← readAll (← IO.getStdin) .empty).toList

/-- A run on what can be read at once. -/
def runAtOnce (env : Environment) : IO UInt32 := do
  let outcome := run env
  writeBytes (← IO.getStdout) outcome.out
  writeBytes (← IO.getStderr) outcome.err
  return outcome.code.toUInt32

def execute (args : List String) : IO UInt32 := do
  let logSpec ← IO.getEnv "RUST_LOG"
  let terminal ← (← IO.getStdin).isTty
  let env : Environment :=
    { args, logSpec, terminal, contentOf := fun _ => .error "", stdin := { bytes := [] } }
  match Tools.usual.settings args with
  | .error _ => runAtOnce env
  | .ok s =>
    if terminal && s.input.isNone && s.backend = .ir && !s.dumpTokens then
      interact s (Tools.usual.loggerFor s logSpec)
    else
      let content ← s.input.elim (pure (.error "")) readSource
      runAtOnce
        { env with contentOf := fun _ => content, stdin := { bytes := ← readInput s } }

end Reckoner.CommandLine

def main (args : List String) : IO UInt32 :=
  Reckoner.CommandLine.execute args
