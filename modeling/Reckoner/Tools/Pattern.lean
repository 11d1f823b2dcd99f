import Reckoner.Tools.Pattern.Branches
import Reckoner.Tools.Pattern.Depth
import Reckoner.Tools.Pattern.Excerpt
import Reckoner.Tools.Pattern.Meaning
import Reckoner.Tools.Pattern.Size

/-!
# Patterns

A pattern is a regular expression that is looked for in a text.  It is read as a whole, so that
faults of its form come before faults of its meaning; last comes what it needs in order to run.
-/

namespace Reckoner

structure Pattern where
  matcher : Pattern.Matcher

namespace Pattern

/-- How large a pattern may be. -/
def sizeLimit : Nat := 10 * 1024 * 1024

/-- Why a text is not taken as a pattern. -/
inductive Refusal
  | fault (f : Fault)
  /-- It asks for the edges of words in Unicode, which are not known. -/
  | unicodeWords
  | tooLarge
deriving DecidableEq

/-- What is said of a refused text. -/
def Refusal.message (text : String) : Refusal → String
  | .fault f => f.message text
  | .unicodeWords => "error building NFA"
  | .tooLarge => "Compiled regex exceeds size limit of " ++ toString sizeLimit ++ " bytes."

/-- The size of the automaton for a pattern: it starts anywhere in a text, keeps what each group
spans when it goes forwards, and has one last state. -/
def Matcher.wholeSize (backwards : Bool) (m : Matcher) : Nat :=
  Size.fork 2 + Size.choice 1 + Size.state + m.group.size backwards + Size.state

/-- A matcher that can be run, or why it cannot. -/
def ofMatcher (m : Matcher) : Except Refusal Pattern :=
  if sizeLimit < m.wholeSize false then .error .tooLarge
  else if m.asksForWords then .error .unicodeWords
  else if sizeLimit < m.wholeSize true then .error .tooLarge
  else .ok ⟨m⟩

def ofText (text : String) : Except Refusal Pattern := do
  let tree ← (Tree.ofText text).mapError .fault
  match tree.tooDeep? 0 with
  | some f => throw (.fault f)
  | none =>
    let (m, _) ← (tree.resolve {}).mapError .fault
    ofMatcher m

/-- The pattern is found in some part of `text`. -/
def isIn (p : Pattern) (text : String) : Bool :=
  p.matcher.found text.toList

end Pattern

end Reckoner
