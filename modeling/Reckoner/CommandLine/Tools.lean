import Reckoner.CommandLine.Settings
import Reckoner.Journal

/-!
# What a run leaves to others

Three things a run does not do by itself: making sense of its arguments, showing notices, and
wording a failure.  The tools for them are given to it.
-/

namespace Reckoner

/-- A way to show notices. -/
structure Logger where
  /-- What is written when it is set up. -/
  opening : Array UInt8
  /-- What is written for a notice, nothing if it is not shown.  That may depend on the moment. -/
  line : Nat → Notice → Array UInt8

/-- All that a journal holds, its notices as they are shown.  The number of an entry is its
moment. -/
def Journal.render (l : Logger) (j : Journal) : Array UInt8 :=
  (j.entries.toList.zipIdx.flatMap fun
    | (.bytes b, _) => b.toList
    | (.notice n, moment) => (l.line moment n).toList).toArray

namespace CommandLine

/-- The exit code and all that was written. -/
structure Outcome where
  code : Nat
  out : Array UInt8 := #[]
  err : Array UInt8 := #[]
deriving DecidableEq

structure Tools where
  /-- Reads arguments.  They may also end the run, if they ask for help or cannot be read. -/
  readArguments : List String → Except Outcome Matches
  /-- The logger for a specification of what it shows. -/
  logger : String → Logger
  /-- Words a failure, by its message and by the causes behind it, the nearest first. -/
  report : String → List String → String

end CommandLine

end Reckoner
