import Reckoner.Notice

/-!
# Settings

What a run is to do, by what its arguments were found to be.
-/

namespace Reckoner.CommandLine

/-- What definitions are compiled to. -/
inductive Backend
  | ir
  | llvm
deriving DecidableEq

structure Settings where
  /-- The source file, or the standard input without one. -/
  input : Option String := none
  backend : Backend := .ir
  emitIr : Bool := false
  dumpAst : Bool := false
  dumpTokens : Bool := false
  cleaning : Bool := true
  verbosity : Nat := 0
deriving DecidableEq

/-- What the arguments of a run were found to be, by the names under which the program knows
them. -/
structure Matches where
  value? : String → Option String
  isPresent : String → Bool
  /-- How often it was given. -/
  count : String → Nat

namespace Settings

/-- What the arguments ask for, or the name of a backend that there is not. -/
def ofMatches (m : Matches) : Except String Settings := do
  let backend ←
    match m.value? "backend" with
    | some "ir" => .ok .ir
    | none => .ok .ir
    | some "llvm" => .ok .llvm
    | some other => .error other
  return {
    input := m.value? "INPUT"
    backend
    emitIr := m.isPresent "emit-ir"
    dumpAst := m.isPresent "dump-ast"
    dumpTokens := m.isPresent "dump-tokens"
    cleaning := !m.isPresent "no-opt"
    verbosity := m.count "verbose" }

/-- How detailed the notices are that are shown, unless the environment says otherwise. -/
def level (s : Settings) : Level :=
  match s.verbosity with
  | 0 => .warn
  | 1 => .info
  | 2 => .debug
  | _ => .trace

end Settings

end Reckoner.CommandLine
