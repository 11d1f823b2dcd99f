import Reckoner.Tools.Pattern.Fault
import Reckoner.Text.Blank

/-!
# Reading a pattern

Reading a pattern goes from its first character to its last, or to the first fault.  Where the
pattern asks for it, blanks and comments between its parts are passed over; a comment goes from
`#` to the end of the line.
-/

namespace Reckoner.Pattern

/-- Where reading has come to, and what bears on how it goes on. -/
structure Cursor where
  rest : List Char
  place : Place := {}
  /-- Blanks and comments are passed over. -/
  spaced : Bool := false
  /-- The names of groups so far. -/
  names : List (List Char × Span) := []
deriving DecidableEq

namespace Cursor

/-- The next character. -/
def peek? (c : Cursor) : Option Char :=
  c.rest.head?

def advance (c : Cursor) : Cursor :=
  match c.rest with
  | [] => c
  | x :: rest => { c with rest, place := c.place.after x }

/-- What the next character spans. -/
def charSpan (c : Cursor) : Span :=
  ⟨c.place, c.advance.place⟩

/-- Passes over `text`, if it comes next. -/
def pass? (c : Cursor) : List Char → Option Cursor
  | [] => some c
  | x :: text => if c.peek? = some x then c.advance.pass? text else none

/-- The characters that satisfy `p`, up to the first that does not; blanks and comments among
them do not count, if `spaced`.  With `inside` the start is in a comment. -/
def gatherFrom (p : Char → Bool) (spaced inside : Bool) :
    List Char → Place → List Char × List Char × Place
  | [], place => ([], [], place)
  | x :: rest, place =>
    if inside then gatherFrom p spaced (x ≠ '\n') rest (place.after x)
    else if spaced && (Text.isBlank x || x = '#') then
      gatherFrom p spaced (x = '#') rest (place.after x)
    else if p x then
      let (taken, left) := gatherFrom p spaced false rest (place.after x)
      (x :: taken, left)
    else ([], x :: rest, place)

/-- The next characters that satisfy `p`, and the cursor behind them. -/
def gather (c : Cursor) (p : Char → Bool) : List Char × Cursor :=
  let (taken, rest, place) := gatherFrom p c.spaced false c.rest c.place
  (taken, { c with rest, place })

/-- Passes over blanks and comments. -/
def skip (c : Cursor) : Cursor :=
  (c.gather fun _ => false).2

/-- Passes over a character, and over blanks and comments after it. -/
def advanceSkip (c : Cursor) : Cursor :=
  c.advance.skip

end Cursor

/-- A part of the reading of a pattern. -/
abbrev Reading := StateT Cursor (Except Fault)

namespace Reading

variable {α : Type}

def peek? : Reading (Option Char) := do
  return (← get).peek?

def place : Reading Place := do
  return (← get).place

/-- What has been read since `start`. -/
def since (start : Place) : Reading Span := do
  return ⟨start, ← place⟩

def advance : Reading Unit :=
  modify Cursor.advance

def skip : Reading Unit :=
  modify Cursor.skip

def advanceSkip : Reading Unit :=
  modify Cursor.advanceSkip

def gather (p : Char → Bool) : Reading (List Char) :=
  modifyGet fun c => c.gather p

def fail (cause : Cause) (span : Span) : Reading α :=
  throw { cause, span }

/-- Calls enough to read what is left, at two for each character. -/
def fuelFor (c : Cursor) : Nat :=
  2 * (c.rest.length + 1)

/-- Fails because of all since `start`. -/
def failSince (cause : Cause) (start : Place) : Reading α := do
  fail cause (← since start)

/-- Fails because of the next character. -/
def failChar (cause : Cause) : Reading α := do
  fail cause (← get).charSpan

/-- Fails between two characters or at the end. -/
def failHere (cause : Cause) : Reading α := do
  fail cause (.point (← place))

end Reading

end Reckoner.Pattern
