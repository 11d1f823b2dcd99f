import Reckoner.CommandLine.Tools
import Reckoner.Session
import Reckoner.Token.Dump

/-!
# Runs

The whole run of the program as a function of its arguments, its environment and its input.  A
run reads the source, lists its tokens if asked to, and holds a session on it.  A source file is
read at once and any error in it fails the run; the standard input is read line by line, and only
a failure to read it does.
-/

namespace Reckoner.CommandLine

/-- What a run depends on. -/
structure Environment where
  args : List String
  /-- The specification of the notices to show; `none` leaves it to the arguments. -/
  logSpec : Option String := none
  /-- The bytes of a file, or why it cannot be read. -/
  contentOf : String → Except String (List UInt8)
  stdin : Lines
  /-- The standard input is a person. -/
  terminal : Bool := false

/-- Why a run fails. -/
inductive Failure
  | unknownBackend (name : String)
  | unreadableFile (path : String) (reason : String)
  | noLlvm
  | errorsIn (count : Nat) (path : String)
  | unreadableInput
  | output (e : SinkFull)
deriving DecidableEq

namespace Failure

def message : Failure → String
  | .unknownBackend name => "unknown backend " ++ name
  | .unreadableFile path _ => "failed to read source file " ++ path
  | .noLlvm => "this build does not include the llvm backend, rebuild with --features llvm"
  | .errorsIn count path => toString count ++ " error(s) in " ++ path
  | .unreadableInput => "failed to read standard input"
  | .output e => e.message

def causes : Failure → List String
  | .unreadableFile _ reason => [reason]
  | _ => []

end Failure

def programName : String := "kaleidoscope"

namespace Settings

/-- The source named by the settings, with the notices of opening it. -/
def openSource (s : Settings) (env : Environment) : Except Failure (Source × List Notice) :=
  match s.input with
  | none => .ok (.ofLines env.stdin, [])
  | some path =>
    match env.contentOf path with
    | .error reason => .error (.unreadableFile path reason)
    | .ok bytes =>
      match decodeUtf8? bytes with
      | none => .error (.unreadableFile path Lines.invalidUtf8)
      | some text => .ok (.ofText text, [.compiling path])

/-- A new session, as the settings ask for. -/
def session (s : Settings) (prompting : Bool) (out : Sink) (journal : Journal) : Session :=
  { options := { listing := s.emitIr, units := s.dumpAst, prompting }
    compiler := .new programName s.cleaning
    out, journal }

/-- Why a run fails although its session came to its end. -/
def complaint? (s : Settings) (session : Session) : Option Failure :=
  match s.input with
  | some path =>
    if session.tally.errors > 0 then some (.errorsIn session.tally.errors path) else none
  | none => if session.inputFailure.isSome then some .unreadableInput else none

end Settings

/-- The end of a run whose session ended with `result`. -/
def conclude (s : Settings) : EStateM.Result SinkFull Session Unit → Option Failure × Session
  | .ok _ session =>
    let tally := session.tally
    (s.complaint? session,
      { session with
        journal := session.journal.addNotices [.finished tally.units tally.errors] })
  | .error e session => (some (.output e), session)

/-- Lists the tokens of a source, and gives a source of the same text with the notices of having
read it. -/
def listTokens (source : Source) (out : Sink) :
    EStateM.Result SinkFull Sink Unit × Source × List Notice :=
  let (text, done) := source.drain
  (Lexer.dumpText text out, { Source.ofText text with failure := done.failure },
    Traced.failureNotice source.failure done.failure)

/-- Reads the source, lists its tokens if asked to, and holds the session. -/
def compile (s : Settings) (env : Environment) : Option Failure × Sink × Journal :=
  match s.openSource env with
  | .error failure => (some failure, .unlimited, {})
  | .ok (source, opening) =>
    let (listed, source, reading) :=
      if s.dumpTokens then listTokens source .unlimited
      else (.ok () .unlimited, source, [])
    let journal := ({} : Journal).addNotices (opening ++ reading)
    match listed, s.backend with
    | .error e out, _ => (some (.output e), out, journal)
    | .ok _ out, .llvm => (some .noLlvm, out, journal)
    | .ok _ out, .ir =>
      let prompting := env.terminal && s.input.isNone
      let (failure, session) :=
        conclude s (Session.run (Lexer.ofSource source) (s.session prompting out journal))
      (failure, session.out, session.journal)

def exitCode (failure : Option Failure) : Nat :=
  if failure.isSome then 1 else 0

namespace Tools

/-- The text that a failed run ends with. -/
def failureText (t : Tools) (failure : Option Failure) : String :=
  failure.elim "" fun f => "Error: " ++ t.report f.message f.causes ++ "\n"

/-- The settings that the arguments ask for, or how the run ends without any. -/
def settings (t : Tools) (args : List String) : Except Outcome Settings :=
  match t.readArguments args with
  | .error outcome => .error outcome
  | .ok m =>
    match Settings.ofMatches m with
    | .error name =>
      .error { code := 1, err := utf8 (t.failureText (some (.unknownBackend name))) }
    | .ok s => .ok s

/-- The logger of a run. -/
def loggerFor (t : Tools) (s : Settings) (spec : Option String) : Logger :=
  t.logger (spec.getD s.level.name)

def run (t : Tools) (env : Environment) : Outcome :=
  match t.settings env.args with
  | .error outcome => outcome
  | .ok s =>
    let logger := t.loggerFor s env.logSpec
    let (failure, out, journal) := compile s env
    { code := exitCode failure
      out := out.bytes
      err := logger.opening ++ journal.render logger ++ utf8 (t.failureText failure) }

end Tools

end Reckoner.CommandLine
