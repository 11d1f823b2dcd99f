import Reckoner.Tools.Pattern.Cursor
import Reckoner.Tools.Pattern.Tree

/-!
# Escapes

What a backslash and the characters after it stand for: a character given by name, by number or
as itself, a set with a letter of its own, a property, or a condition on the place.
-/

namespace Reckoner.Pattern

def hexDigit? (c : Char) : Option Nat :=
  if c.isDigit then some (c.toNat - 48)
  else if 'a' ≤ c ∧ c ≤ 'f' then some (c.toNat - 87)
  else if 'A' ≤ c ∧ c ≤ 'F' then some (c.toNat - 55)
  else none

/-- The number that hexadecimal digits stand for; what is none counts as zero. -/
def hexValue (digits : List Char) : Nat :=
  digits.foldl (fun n c => 16 * n + (hexDigit? c).getD 0) 0

/-- The character with the given number. -/
def scalar? (digits : List Char) : Option Char :=
  if (hexValue digits).isValidChar then some (Char.ofNat (hexValue digits)) else none

/-- How many digits follow a letter that asks for hexadecimal digits. -/
def hexLength? : Char → Option Nat
  | 'x' => some 2
  | 'u' => some 4
  | 'U' => some 8
  | _ => none

def shorthand? : Char → Option (Shorthand × Bool)
  | 'd' => some (.digit, false)
  | 's' => some (.space, false)
  | 'w' => some (.word, false)
  | 'D' => some (.digit, true)
  | 'S' => some (.space, true)
  | 'W' => some (.word, true)
  | _ => none

/-- The characters that letters name. -/
def namedChar? : Char → Option Char
  | 'a' => some '\x07'
  | 'f' => some '\x0C'
  | 't' => some '\t'
  | 'n' => some '\n'
  | 'r' => some '\r'
  | 'v' => some '\x0B'
  | _ => none

/-- After a backslash these stand for themselves: ASCII but letters, digits and angles. -/
def standsForItself (c : Char) : Bool :=
  c.toNat < 128 && !c.isAlphanum && c ≠ '<' && c ≠ '>'

def anchor? : Char → Option Anchor
  | 'A' => some .textStart
  | 'z' => some .textStop
  | 'b' => some (.word .boundary)
  | 'B' => some (.word .inside)
  | '<' => some (.word .start)
  | '>' => some (.word .stop)
  | _ => none

def wordEdge? (name : List Char) : Option WordEdge :=
  match String.ofList name with
  | "start" => some .start
  | "end" => some .stop
  | "start-half" => some .startHalf
  | "end-half" => some .stopHalf
  | _ => none

namespace Reading

/-- Exactly so many hexadecimal digits. -/
def hexDigits : Nat → Reading (List Char)
  | 0 => return []
  | k + 1 => do
    match ← peek? with
    | none => failHere .escapeCut
    | some c =>
      if (hexDigit? c).isNone then failChar .hexNotDigit
      else
        advanceSkip
        return c :: (← hexDigits k)

/-- A character by a number of fixed length. -/
def fixedHex (start : Place) (length : Nat) : Reading Literal := do
  let first ← place
  let digits ← hexDigits length
  match scalar? digits with
  | none => failSince .hexNotScalar first
  | some char => return { span := ← since start, char, isByte := length = 2 }

/-- A character by a number in braces. -/
def bracedHex (start : Place) : Reading Literal := do
  let brace ← place
  advance
  let first ← place
  let digits ← gather fun c => (hexDigit? c).isSome
  match ← peek? with
  | none => failSince .escapeCut brace
  | some '}' =>
    let span ← since first
    advanceSkip
    if digits.isEmpty then failSince .hexEmpty brace
    else
      match scalar? digits with
      | none => fail .hexNotScalar span
      | some char => return { span := ← since start, char }
  | some _ => failChar .hexNotDigit

/-- A character by number, from the letter behind the backslash on. -/
def hex (start : Place) (length : Nat) : Reading Literal := do
  advanceSkip
  match ← peek? with
  | none => failHere .escapeCut
  | some '{' => bracedHex start
  | some _ => fixedHex start length

/-- A property by name, from the letter behind the backslash on. -/
def property (start : Place) : Reading Atom := do
  advanceSkip
  match ← peek? with
  | none => failHere .escapeCut
  | some '{' =>
    advance
    let name ← gather (· ≠ '}')
    if (← peek?).isNone then failHere .escapeCut
    else
      advance
      return .property (← since start) name
  | some '\\' => failChar .propertyMalformed
  | some c =>
    advanceSkip
    return .property (← since start) [c]

/-- What kind of edge is meant, in braces behind the letter for an edge.  Braces that begin with
anything but a letter or a dash are left, to be read as a count. -/
def wordEdge (start : Place) : Reading WordEdge := do
  if (← peek?) ≠ some '{' then return .boundary
  else
    let brace ← get
    let inner := brace.advanceSkip
    let isPart (c : Char) := c.isAlpha || c = '-'
    let (name, after) := inner.gather isPart
    if inner.peek?.isNone then fail .wordEdgeCut ⟨start, inner.place⟩
    else if name.isEmpty then return .boundary
    else if after.peek? ≠ some '}' then fail .wordEdgeUnclosed ⟨brace.place, after.place⟩
    else
      match wordEdge? name with
      | none => fail .wordEdgeUnknown ⟨inner.place, after.place⟩
      | some edge =>
        set after.advance
        return edge

/-- What is one character behind the backslash. -/
def shortEscape (start : Place) (c : Char) : Reading Atom := do
  advance
  let span ← since start
  match shorthand? c, namedChar? c, anchor? c with
  | some (s, negated), _, _ => return .shorthand span s negated
  | _, some char, _ => return .literal { span, char }
  | _, _, some (.word .boundary) =>
    let edge ← wordEdge start
    return .anchor (← since start) (.word edge)
  | _, _, some a => return .anchor span a
  | _, _, _ =>
    if standsForItself c then return .literal { span, char := c }
    else fail .escapeUnknown span

/-- From a backslash on. -/
def escape : Reading Atom := do
  let start ← place
  advance
  match ← peek? with
  | none => failSince .escapeCut start
  | some c =>
    if c.isDigit then fail .backreference ⟨start, (← get).charSpan.stop⟩
    else if c = 'p' || c = 'P' then property start
    else
      match hexLength? c with
      | some length => return .literal (← hex start length)
      | none => shortEscape start c

end Reading

end Reckoner.Pattern
