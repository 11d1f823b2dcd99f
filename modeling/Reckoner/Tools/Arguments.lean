import Reckoner.CommandLine.Tools

/-!
# Command line arguments

The usual reader of arguments.  Options stand before, after or between the words that are none, and
`--` makes words of all that follow.  Single letters are written together, long options in full.
The arguments are read from left to right, and the first that cannot be read ends it, or the first
that asks for help; only then are the options looked at as a whole.
-/

namespace Reckoner.CommandLine

/-- Why arguments are not carried out. -/
inductive UsageError
  | unknownArgument (arg : String)
  | invalidBackend (name : String)
  | repeatedOption (name : String)
  | helpWanted
  | versionWanted
deriving DecidableEq

/-- An option without a value. -/
inductive Flag
  | emitIr
  | dumpAst
  | dumpTokens
  | noOpt
  | verbose
  | help
  | version
deriving DecidableEq

namespace Flag

def name : Flag → String
  | .emitIr => "emit-ir"
  | .dumpAst => "dump-ast"
  | .dumpTokens => "dump-tokens"
  | .noOpt => "no-opt"
  | .verbose => "verbose"
  | .help => "help"
  | .version => "version"

/-- The flags that are written out, each by its name. -/
def long : List Flag :=
  [.emitIr, .dumpAst, .dumpTokens, .noOpt, .help, .version]

def ofLetter? : Char → Option Flag
  | 'v' => some .verbose
  | 'h' => some .help
  | 'V' => some .version
  | _ => none

end Flag

/-- The arguments read so far. -/
structure Given where
  input : Option String := none
  /-- The values given for the backend. -/
  backends : List String := []
  /-- How often the backend option stood there, with or without a value. -/
  backendCount : Nat := 0
  flags : List Flag := []

namespace Given

def addFlag (g : Given) : Flag → Except UsageError Given
  | .help => .error .helpWanted
  | .version => .error .versionWanted
  | f => .ok { g with flags := f :: g.flags }

/-- A word that is no option names the input. -/
def addWord (g : Given) (word : String) : Except UsageError Given :=
  match g.input with
  | none => .ok { g with input := some word }
  | some _ => .error (.unknownArgument word)

def addLetters (g : Given) : List Char → Except UsageError Given
  | [] => .ok g
  | c :: cs =>
    match Flag.ofLetter? c with
    | none => .error (.unknownArgument (String.ofList ['-', c]))
    | some f => do (← g.addFlag f).addLetters cs

/-- A long option, without the dashes before it.  The flag tells whether the next word is its
value; a value after `=` is dropped by an option that takes none. -/
def addLong (g : Given) (text : List Char) : Except UsageError (Given × Bool) :=
  let name := String.ofList (text.takeWhile (· ≠ '='))
  let rest := text.dropWhile (· ≠ '=')
  if name = "backend" then
    let counted := { g with backendCount := g.backendCount + 1 }
    if rest = [] then .ok (counted, true)
    else
      let value := String.ofList (rest.dropWhile (· = '='))
      .ok ({ counted with backends := g.backends ++ [value] }, false)
  else
    match Flag.long.find? (·.name = name) with
    | some f => do .ok (← g.addFlag f, false)
    | none => .error (.unknownArgument ("--" ++ name))

/-- Reads the arguments from `g` on.  If `awaiting`, a word is the value of the backend option
before it. -/
def read (g : Given) (awaiting : Bool) : List String → Except UsageError Given
  | [] => .ok g
  | arg :: rest =>
    match arg.toList with
    | ['-', '-'] => rest.foldlM addWord g
    | '-' :: '-' :: text => do
      let (g, awaiting) ← g.addLong (text.dropWhile (· = '-'))
      g.read awaiting rest
    | '-' :: c :: cs => do
      let g ← g.addLetters (c :: cs)
      g.read false rest
    | _ => do
      let g ← if awaiting then .ok { g with backends := g.backends ++ [arg] } else g.addWord arg
      g.read false rest

/-- What the arguments were found to be. -/
def found (g : Given) : Matches where
  value?
    | "INPUT" => g.input
    | "backend" => some (g.backends.head?.getD "ir")
    | _ => none
  isPresent name := g.flags.any (·.name = name)
  count name := g.flags.countP (·.name = name)

/-- Looks at the arguments as a whole: which values there are, and what is given twice. -/
def settle (g : Given) : Except UsageError Matches :=
  match g.backends.find? (· ∉ ["ir", "llvm"]) with
  | some name => .error (.invalidBackend name)
  | none =>
    if g.backendCount > 1 then .error (.repeatedOption "--backend")
    else
      match Flag.long.find? (fun f => g.flags.count f > 1) with
      | some f => .error (.repeatedOption ("--" ++ f.name))
      | none => .ok g.found

end Given

namespace Matches

def ofArgs (args : List String) : Except UsageError Matches := do
  (← ({} : Given).read false args).settle

end Matches

namespace UsageError

def versionText : String :=
  "kaleidoscope 0.1.0\n"

def usageText : String :=
  "USAGE:\n    kaleidoscope [FLAGS] [OPTIONS] [INPUT]\n"

def helpText : String :=
  versionText ++
  "a front end and jit for a tiny expression language\n\n" ++ usageText ++
  "\nFLAGS:\n" ++
  "        --dump-ast       print each parsed unit\n" ++
  "        --dump-tokens    print the token stream before compiling\n" ++
  "        --emit-ir        print the IR of every compiled function and of the final module\n" ++
  "    -h, --help           Prints help information\n" ++
  "        --no-opt         skip the per-function optimization pass\n" ++
  "    -V, --version        Prints version information\n" ++
  "    -v                   raise log verbosity, may be repeated\n" ++
  "\nOPTIONS:\n" ++
  "        --backend <backend>    code generation backend [default: ir]  " ++
  "[possible values: ir, llvm]\n" ++
  "\nARGS:\n    <INPUT>    source file to compile, defaults to standard input\n"

/-- What is said of arguments that are not carried out. -/
def message : UsageError → String
  | .unknownArgument arg =>
    "Found argument '" ++ arg ++ "' which wasn't expected, or isn't valid in this context"
  | .invalidBackend name =>
    "'" ++ name ++ "' isn't a valid value for '--backend <backend>'\n" ++
      "\t[possible values: ir, llvm]\n"
  | .repeatedOption name =>
    "The argument '" ++ name ++ "' was provided more than once, but cannot be used multiple times"
  | .helpWanted => helpText
  | .versionWanted => versionText

def outcome : UsageError → Outcome
  | .helpWanted => { code := 0, out := utf8 helpText }
  | .versionWanted => { code := 0, out := utf8 versionText }
  | e =>
    { code := 1
      err := utf8 ("error: " ++ e.message ++ "\n\n" ++ usageText ++
        "\nFor more information try --help\n") }

end UsageError

end Reckoner.CommandLine
