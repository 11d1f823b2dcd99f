import Reckoner.Tools.Pattern.Fault
import Reckoner.Tools.Pattern.Tree

/-!
# Nesting

What goes deeper in a pattern: groups, repetitions, branches, lists of parts, and in brackets the
brackets, lists and operators inside.  The first part that lies too deep, from left to right and
from the outside in, is the fault of the pattern.
-/

namespace Reckoner.Pattern

/-- The fault of a part at `span` with `depth` levels around it, unless it may stand there; and
what is found inside it otherwise. -/
def deeper (span : Span) (depth : Nat) (inside : Option Fault) : Option Fault :=
  if depth < depthLimit then inside else some { cause := .tooDeep, span }

mutual

def SetTree.tooDeep? (depth : Nat) : SetTree → Option Fault
  | .bracket span _ inner => deeper span depth (inner.tooDeep? (depth + 1))
  | .union span parts => deeper span depth (SetTree.anyTooDeep? (depth + 1) parts)
  | .combined span _ left right =>
    deeper span depth ((left.tooDeep? (depth + 1)).or (right.tooDeep? (depth + 1)))
  | _ => none

def SetTree.anyTooDeep? (depth : Nat) : List SetTree → Option Fault
  | [] => none
  | t :: ts => (t.tooDeep? depth).or (SetTree.anyTooDeep? depth ts)

end

mutual

/-- The first part of a tree that lies too deep, with `depth` levels around the tree. -/
def Tree.tooDeep? (depth : Nat) : Tree → Option Fault
  | .set t => t.tooDeep? depth
  | .repetition span _ _ inner => deeper span depth (inner.tooDeep? (depth + 1))
  | .group span _ _ inner => deeper span depth (inner.tooDeep? (depth + 1))
  | .alternation span branches => deeper span depth (Tree.anyTooDeep? (depth + 1) branches)
  | .concat span parts => deeper span depth (Tree.anyTooDeep? (depth + 1) parts)
  | .empty _ | .flags _ _ | .atom _ => none

def Tree.anyTooDeep? (depth : Nat) : List Tree → Option Fault
  | [] => none
  | t :: ts => (t.tooDeep? depth).or (Tree.anyTooDeep? depth ts)

end

end Reckoner.Pattern
