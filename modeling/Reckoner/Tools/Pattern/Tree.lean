import Reckoner.Tools.Pattern.Place

/-!
# Patterns as written

The parts of a pattern, each with what it spans.  Nothing is resolved here: what a dot, an anchor
or a set stands for depends on the flags in force, and some parts have no meaning at all.
-/

namespace Reckoner.Pattern

/-- Where a place stands to the words around it. -/
inductive WordEdge
  | boundary
  | inside
  | start
  | stop
  | startHalf
  | stopHalf
deriving DecidableEq

/-- A condition on a place, as written. -/
inductive Anchor
  | lineStart
  | lineStop
  | textStart
  | textStop
  | word (edge : WordEdge)
deriving DecidableEq

/-- The sets with a letter of their own. -/
inductive Shorthand
  | digit
  | space
  | word
deriving DecidableEq

/-- The named sets of ASCII characters. -/
inductive NamedSet
  | alnum
  | alpha
  | ascii
  | blank
  | cntrl
  | digit
  | graph
  | lower
  | print
  | punct
  | space
  | upper
  | word
  | xdigit
deriving DecidableEq

structure Literal where
  span : Span
  char : Char
  /-- It is written as two hexadecimal digits, which may also stand for a byte. -/
  isByte : Bool := false
deriving DecidableEq

/-- The parts of a pattern that have no parts. -/
inductive Atom
  | literal (l : Literal)
  | dot (span : Span)
  | anchor (span : Span) (a : Anchor)
  | shorthand (span : Span) (s : Shorthand) (negated : Bool)
  | property (span : Span) (name : List Char)
deriving DecidableEq

/-- How the sets at the sides of an operator are combined. -/
inductive SetOp
  | intersection
  | difference
  | symmetricDifference
deriving DecidableEq

/-- A set of characters between brackets. -/
inductive SetTree
  | empty (span : Span)
  | literal (l : Literal)
  | range (span : Span) (low high : Literal)
  | named (span : Span) (name : NamedSet) (negated : Bool)
  | shorthand (span : Span) (s : Shorthand) (negated : Bool)
  | property (span : Span) (name : List Char)
  | bracket (span : Span) (negated : Bool) (inner : SetTree)
  | union (span : Span) (parts : List SetTree)
  | combined (span : Span) (op : SetOp) (left right : SetTree)

/-- What can be turned on and off within a pattern. -/
inductive Flag
  | caseInsensitive
  | multiLine
  | dotAll
  | lazy
  | unicode
  | crlf
  | spaced
deriving DecidableEq

/-- Flags with what they are set to, in the order of writing. -/
abbrev Settings := List (Flag × Bool)

inductive Tree
  | empty (span : Span)
  | flags (span : Span) (settings : Settings)
  | atom (a : Atom)
  | set (s : SetTree)
  | repetition (span : Span) (least : Nat) (most : Option Nat) (inner : Tree)
  | group (span : Span) (captures : Bool) (settings : Settings) (inner : Tree)
  | alternation (span : Span) (branches : List Tree)
  | concat (span : Span) (parts : List Tree)

def Atom.span : Atom → Span
  | .literal l => l.span
  | .dot s | .anchor s _ | .shorthand s _ _ | .property s _ => s

def SetTree.span : SetTree → Span
  | .literal l => l.span
  | .empty s | .range s _ _ | .named s _ _ | .shorthand s _ _ | .property s _ | .bracket s _ _
  | .union s _ | .combined s _ _ _ => s

def Tree.span : Tree → Span
  | .atom a => a.span
  | .set t => t.span
  | .empty s | .flags s _ | .repetition s _ _ _ | .group s _ _ _ | .alternation s _
  | .concat s _ => s

/-- The setting of a flag. -/
def Settings.get? (s : Settings) (f : Flag) : Option Bool :=
  s.lookup f

end Reckoner.Pattern
