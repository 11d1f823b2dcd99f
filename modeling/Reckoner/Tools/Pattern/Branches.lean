import Reckoner.Tools.Pattern.Bracket
import Reckoner.Tools.Pattern.Group

/-!
# Branches

A pattern is a list of branches with bars between them, and so is the inside of a group.  A
branch is a list of parts, each of which an operator behind it may repeat.
-/

namespace Reckoner.Pattern

/-- The branch that is being read, the last part first. -/
structure Branch where
  start : Place
  parts : List Tree := []

def Branch.add (b : Branch) (t : Tree) : Branch :=
  { b with parts := t :: b.parts }

def Branch.tree (b : Branch) (stop : Place) : Tree :=
  match b.parts with
  | [] => .empty ⟨b.start, stop⟩
  | [t] => t
  | parts => .concat ⟨b.start, stop⟩ parts.reverse

/-- The branches before the one that is being read, the last one first. -/
structure Branches where
  start : Place
  done : List Tree := []
  current : Branch

namespace Branches

def begin (place : Place) : Branches :=
  { start := place, current := { start := place } }

def add (b : Branches) (t : Tree) : Branches :=
  { b with current := b.current.add t }

/-- A bar at `stop`, behind which the next branch begins. -/
def next (b : Branches) (stop after : Place) : Branches :=
  { b with done := b.current.tree stop :: b.done, current := { start := after } }

def tree (b : Branches) (stop : Place) : Tree :=
  let last := b.current.tree stop
  if b.done.isEmpty then last
  else .alternation ⟨b.start, stop⟩ (last :: b.done).reverse

end Branches

/-- The numbers that a count can be. -/
def countLimit : Nat := Nat.pow 2 32

/-- The number that decimal digits stand for. -/
def decimalValue (digits : List Char) : Nat :=
  digits.foldl (fun n c => 10 * n + (c.toNat - 48)) 0

namespace Reading

/-- Passes over at most so many blanks, also where blanks count. -/
def skipBlanks : Nat → Reading Unit
  | 0 => return ()
  | k + 1 => do
    match ← peek? with
    | some c =>
      if Text.isBlank c then
        advance
        skipBlanks k
    | none => return ()

/-- A decimal number, or why there is none; blanks may stand around it. -/
def decimal : Reading (Except Fault Nat) := do
  skipBlanks (← get).rest.length
  let start ← place
  let digits ← gather Char.isDigit
  let span ← since start
  skipBlanks (← get).rest.length
  if digits.isEmpty then return .error { cause := .countMissing, span }
  else if decimalValue digits < countLimit then return .ok (decimalValue digits)
  else return .error { cause := .countTooBig, span }

/-- How often a repetition repeats, from the opening brace to before the closing one. -/
def countRange (start : Place) : Reading (Nat × Option Nat) := do
  advanceSkip
  if (← peek?).isNone then failSince .countUnclosed start
  else
    let least ← decimal
    match ← peek? with
    | none => failSince .countUnclosed start
    | some ',' =>
      advanceSkip
      match ← peek? with
      | none => failSince .countUnclosed start
      | some '}' => return (← least, none)
      | some _ =>
        let least : Nat ← least
        let most : Nat ← (← decimal)
        return (least, some most)
    | some _ =>
      let count : Nat ← least
      return (count, some count)

/-- Passes over the question mark that makes a repetition lazy. -/
def passLazy : Reading Unit := do
  if (← peek?) = some '?' then advance

/-- What the operator that comes next repeats: the last part, unless that sets flags. -/
def operand (b : Branches) : Reading (Tree × List Tree) :=
  match b.current.parts with
  | [] | .flags _ _ :: _ => failHere .nothingRepeated
  | t :: parts => return (t, parts)

def repeated (b : Branches) (least : Nat) (most : Option Nat) (t : Tree) (parts : List Tree) :
    Reading Branches := do
  let repetition := Tree.repetition ⟨t.span.start, ← place⟩ least most t
  return { b with current := { b.current with parts := repetition :: parts } }

/-- A repetition by an operator of one character. -/
def repetition (b : Branches) (least : Nat) (most : Option Nat) : Reading Branches := do
  let (t, parts) ← operand b
  advance
  passLazy
  repeated b least most t parts

/-- A repetition by a count in braces. -/
def countedRepetition (b : Branches) : Reading Branches := do
  let start ← place
  let (t, parts) ← operand b
  let (least, most) ← countRange start
  if (← peek?) ≠ some '}' then failSince .countUnclosed start
  else
    advanceSkip
    passLazy
    if most.elim false (· < least) then failSince .countReversed start
    else repeated b least most t parts

/-- One character, or what an escape stands for. -/
def atom (c : Char) : Reading Atom := do
  let span := (← get).charSpan
  if c = '\\' then escape
  else
    advance
    match c with
    | '.' => return .dot span
    | '^' => return .anchor span .lineStart
    | '$' => return .anchor span .lineStop
    | _ => return .literal { span, char := c }

def setSpaced (s : Settings) : Reading Unit :=
  modify fun c => { c with spaced := (s.get? .spaced).getD c.spaced }

mutual

/-- A group from its opening parenthesis on, or the flags that are all it holds. -/
def group : Nat → Reading Tree
  | 0 => failHere .groupUnclosed
  | fuel + 1 => do
    let c ← get
    match ← head c.charSpan with
    | .settings s =>
      setSpaced s
      return .flags (← since c.place) s
    | .group captures s =>
      setSpaced s
      let inner ← branches fuel (some c.charSpan) (.begin (← place))
      modify fun after => { after with spaced := c.spaced }
      advance
      return .group (← since c.place) captures s inner

/-- The rest of the branches, up to the end, or, in a group, to its closing parenthesis.  No
character takes more than two calls, which says how much fuel is enough. -/
def branches : Nat → Option Span → Branches → Reading Tree
  | 0, _, _ => failHere .groupUnclosed
  | fuel + 1, opened, b => do
    skip
    match ← peek?, opened with
    | none, none => return b.tree (← place)
    | none, some span => fail .groupUnclosed span
    | some ')', none => failChar .groupUnopened
    | some ')', some _ => return b.tree (← place)
    | some '(', _ =>
      let t ← group fuel
      branches fuel opened (b.add t)
    | some '|', _ =>
      let stop ← place
      advance
      branches fuel opened (b.next stop (← place))
    | some '[', _ =>
      let t ← bracket (fuelFor (← get))
      branches fuel opened (b.add (.set t))
    | some '?', _ => branches fuel opened (← repetition b 0 (some 1))
    | some '*', _ => branches fuel opened (← repetition b 0 none)
    | some '+', _ => branches fuel opened (← repetition b 1 none)
    | some '{', _ => branches fuel opened (← countedRepetition b)
    | some c, _ =>
      let a ← atom c
      branches fuel opened (b.add (.atom a))

end

end Reading

/-- Reads a whole pattern. -/
def Tree.ofText (text : String) : Except Fault Tree :=
  let cursor : Cursor := { rest := text.toList }
  (Reading.branches (Reading.fuelFor cursor) none (.begin cursor.place)).run' cursor

end Reckoner.Pattern
