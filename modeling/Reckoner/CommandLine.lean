import Reckoner.CommandLine.Run
import Reckoner.Tools.Arguments
import Reckoner.Tools.LogFilter

/-!
# The command line

The program with the usual tools.
-/

namespace Reckoner.CommandLine

/-- The text of a failure: its message, and then the causes, numbered if there are several. -/
def reportOf (message : String) : List String → String
  | [] => message
  | [cause] => message ++ "\n\nCaused by:\n    " ++ cause
  | causes =>
    message ++ "\n\nCaused by:" ++
      String.join (causes.zipIdx.map fun (cause, n) => "\n    " ++ toString n ++ ": " ++ cause)

def Tools.usual : Tools where
  readArguments args := (Matches.ofArgs args).mapError UsageError.outcome
  logger := .ofSpec
  report := reportOf

/-- The settings that the arguments ask for. -/
def Settings.ofArgs (args : List String) : Except UsageError Settings := do
  (ofMatches (← Matches.ofArgs args)).mapError .invalidBackend

def run : Environment → Outcome :=
  Tools.usual.run

end Reckoner.CommandLine
